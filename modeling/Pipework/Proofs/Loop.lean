import Pipework.Proofs.Dispatch
import Pipework.Proofs.Frame

/-!
# Every loop of a run ends

Each turn but the last makes `Loop.fuel` smaller, so the loop needs no bound from outside:
`Engine.runLoop` takes turns until one is the last.
-/

namespace Pipework

variable {σ : Type}

namespace Engine

variable (eng : Engine σ) {token : Option String} {s : Scene σ} {n : Node Pipe}

theorem turn_cancelled (hc : eng.isCancelled token s.world = true) (left : Nat) :
    eng.turn token ⟨s, left⟩ = .done (.error (.cancelled s.run.id)) s := by
  simp [turn, hc]

theorem turn_node (hc : eng.isCancelled token s.world = false)
    (hn : s.run.stack.top.current? = some n) (left : Nat) :
    eng.turn token ⟨s, left + 1⟩ = eng.runNode s n left := by
  simp [turn, hc, hn]

theorem turn_exhausted (hc : eng.isCancelled token s.world = false)
    (hn : s.run.stack.top.current? = some n) :
    eng.turn token ⟨s, 0⟩ =
      .done (.error (.stepLimitExceeded s.run.id eng.settings.maxSteps)) s := by
  simp [turn, hc, hn]

theorem turn_case {parent : Frame} {rest : List Frame}
    (hc : eng.isCancelled token s.world = false) (hn : s.run.stack.top.current? = none)
    (hb : s.run.stack.below = parent :: rest) (left : Nat) :
    eng.turn token ⟨s, left⟩ = match s.run.closeCase eng.evaluator parent rest with
      | .ok run => .more ⟨{ s with run := run }, left⟩
      | .error e => .done (.error e) s := by
  simp only [turn, hc, hn, hb]
  rfl

theorem turn_root (hc : eng.isCancelled token s.world = false)
    (hn : s.run.stack.top.current? = none) (hb : s.run.stack.below = []) (left : Nat) :
    eng.turn token ⟨s, left⟩ = match s.run.closeRoot eng.evaluator with
      | .ok (.inl run) => .more ⟨{ s with run := run }, left⟩
      | .ok (.inr value) => .done (.ok (.completed value)) s
      | .error e => .done (.error e) s := by
  simp only [turn, hc, hn, hb]
  rfl

inductive Moves (s : Scene σ) (left : Nat) : Loop σ → Prop
  | advance {n : Node Pipe} {output : Json} {s' : Scene σ} {f : Frame} {k : Nat} :
      s.run.stack.top.current? = some n → left = k + 1 →
      eng.dispatch s n = (.ok (.advance output), s') →
      (s'.run.stack.top.record n.name output).advance = .ok f →
      Moves s left ⟨{ s' with run := s'.run.withTop f }, k⟩
  | enter {n : Node Pipe} {child : Frame} {s' : Scene σ} {k : Nat} :
      s.run.stack.top.current? = some n → left = k + 1 →
      eng.dispatch s n = (.ok (.enter child), s') →
      Moves s left ⟨{ s' with run := { s'.run with stack := s'.run.stack.push child } }, k⟩
  | leave {parent : Frame} {rest : List Frame} {run : Run} :
      s.run.stack.top.current? = none → s.run.stack.below = parent :: rest →
      s.run.closeCase eng.evaluator parent rest = .ok run →
      Moves s left ⟨{ s with run := run }, left⟩
  | again {run : Run} :
      s.run.stack.top.current? = none → s.run.stack.below = [] →
      s.run.closeRoot eng.evaluator = .ok (.inl run) →
      Moves s left ⟨{ s with run := run }, left⟩

theorem moves_of_turn {l l' : Loop σ} (h : eng.turn token l = .more l') :
    eng.Moves l.scene l.left l' := by
  obtain ⟨s, left⟩ := l
  cases hc : eng.isCancelled token s.world with
  | true =>
    rw [eng.turn_cancelled hc] at h
    cases h
  | false =>
    cases hn : s.run.stack.top.current? with
    | none =>
      cases hb : s.run.stack.below with
      | nil =>
        rw [eng.turn_root hc hn hb] at h
        split at h
        next run hr =>
          cases h
          exact .again hn hb hr
        · cases h
        · cases h
      | cons parent rest =>
        rw [eng.turn_case hc hn hb] at h
        split at h
        next run hr =>
          cases h
          exact .leave hn hb hr
        · cases h
    | some n =>
      cases left with
      | zero =>
        rw [eng.turn_exhausted hc hn] at h
        cases h
      | succ left =>
        rw [eng.turn_node hc hn] at h
        unfold runNode at h
        split at h
        · cases h
        next output s' hd =>
          split at h
          next run hr =>
            cases h
            obtain ⟨f, hf, rfl⟩ := Run.pass_eq hr
            exact .advance hn rfl hd hf
          · cases h
        next child s' hd =>
          cases h
          exact .enter hn rfl hd
        · cases h

inductive Ends (token : Option String) (s : Scene σ) (left : Nat) :
    Except RunError Ending → Scene σ → Prop
  | cancelled : eng.isCancelled token s.world = true →
      Ends token s left (.error (.cancelled s.run.id)) s
  | exhausted {n : Node Pipe} : eng.isCancelled token s.world = false →
      s.run.stack.top.current? = some n → left = 0 →
      Ends token s left (.error (.stepLimitExceeded s.run.id eng.settings.maxSteps)) s
  | failed {n : Node Pipe} {e : RunError} {s' : Scene σ} :
      eng.isCancelled token s.world = false → s.run.stack.top.current? = some n → left ≠ 0 →
      eng.dispatch s n = (.error e, s') → Ends token s left (.error e) s'
  | astray {n : Node Pipe} {output : Json} {e : RunError} {s' : Scene σ} :
      eng.isCancelled token s.world = false → s.run.stack.top.current? = some n → left ≠ 0 →
      eng.dispatch s n = (.ok (.advance output), s') → s'.run.pass n.name output = .error e →
      Ends token s left (.error e) s'
  | paused {n : Node Pipe} {snapshot : Snapshot} {s' : Scene σ} :
      eng.isCancelled token s.world = false → s.run.stack.top.current? = some n → left ≠ 0 →
      eng.dispatch s n = (.ok (.suspend snapshot), s') →
      Ends token s left (.ok (.suspended snapshot))
        { s' with run := { s'.run with paused := some snapshot } }
  | caseFailed {parent : Frame} {rest : List Frame} {e : RunError} :
      eng.isCancelled token s.world = false → s.run.stack.top.current? = none →
      s.run.stack.below = parent :: rest →
      s.run.closeCase eng.evaluator parent rest = .error e → Ends token s left (.error e) s
  | rootFailed {e : RunError} : eng.isCancelled token s.world = false →
      s.run.stack.top.current? = none → s.run.stack.below = [] →
      s.run.closeRoot eng.evaluator = .error e → Ends token s left (.error e) s
  | completed {value : Json} : eng.isCancelled token s.world = false →
      s.run.stack.top.current? = none → s.run.stack.below = [] →
      s.run.closeRoot eng.evaluator = .ok (.inr value) →
      Ends token s left (.ok (.completed value)) s

theorem ends_of_turn {l : Loop σ} {result : Except RunError Ending} {t : Scene σ}
    (h : eng.turn token l = .done result t) : eng.Ends token l.scene l.left result t := by
  obtain ⟨s, left⟩ := l
  cases hc : eng.isCancelled token s.world with
  | true =>
    rw [eng.turn_cancelled hc] at h
    cases h
    exact .cancelled hc
  | false =>
    cases hn : s.run.stack.top.current? with
    | none =>
      cases hb : s.run.stack.below with
      | nil =>
        rw [eng.turn_root hc hn hb] at h
        split at h
        · cases h
        next hr =>
          cases h
          exact .completed hc hn hb hr
        next hr =>
          cases h
          exact .rootFailed hc hn hb hr
      | cons parent rest =>
        rw [eng.turn_case hc hn hb] at h
        split at h
        · cases h
        next hr =>
          cases h
          exact .caseFailed hc hn hb hr
    | some n =>
      cases left with
      | zero =>
        rw [eng.turn_exhausted hc hn] at h
        cases h
        exact .exhausted hc hn rfl
      | succ left =>
        rw [eng.turn_node hc hn] at h
        unfold runNode at h
        split at h
        next hd =>
          cases h
          exact .failed hc hn (by simp) hd
        next hd =>
          split at h
          · cases h
          next hr =>
            cases h
            exact .astray hc hn (by simp) hd hr
        · cases h
        next hd =>
          cases h
          exact .paused hc hn (by simp) hd

theorem run_of_done {l : Loop σ} {result : Except RunError Ending} {s : Scene σ}
    (h : eng.turn token l = .done result s) :
    ∃ m p, s.run = { l.scene.run with memory := m, paused := p } ∧
      ∀ snapshot, result = .ok (.suspended snapshot) → p = some snapshot ∧ l.left ≠ 0 := by
  have hdispatch {n : Node Pipe} {step : Except RunError Step} {s' : Scene σ}
      (hd : eng.dispatch l.scene n = (step, s')) :
      ∃ m, s'.run = { l.scene.run with memory := m } := by
    obtain ⟨m, hm⟩ := eng.dispatch_run l.scene n
    rw [hd] at hm
    exact ⟨m, hm⟩
  cases eng.ends_of_turn h with
  | cancelled | exhausted | caseFailed | rootFailed | completed => exact ⟨_, _, rfl, by simp⟩
  | failed _ _ _ hd =>
    obtain ⟨m, hm⟩ := hdispatch hd
    exact ⟨m, _, hm, by simp⟩
  | astray _ _ _ hd _ =>
    obtain ⟨m, hm⟩ := hdispatch hd
    exact ⟨m, _, hm, by simp⟩
  | paused _ _ hleft hd =>
    obtain ⟨m, hm⟩ := hdispatch hd
    refine ⟨m, _, by rw [hm], ?_⟩
    rintro _ ⟨⟩
    exact ⟨rfl, hleft⟩

theorem sameRun_of_done {l : Loop σ} {result : Except RunError Ending} {s : Scene σ}
    (h : eng.turn token l = .done result s) : l.scene.run.SameRun s.run := by
  obtain ⟨m, p, hr, -⟩ := eng.run_of_done h
  rw [hr]
  exact ⟨rfl, rfl, rfl⟩

theorem sameRun_of_dispatch (s : Scene σ) (n : Node Pipe) {step : Except RunError Step}
    {s' : Scene σ} (h : eng.dispatch s n = (step, s')) :
    s'.run.stack = s.run.stack ∧ s.run.SameRun s'.run := by
  obtain ⟨m, hm⟩ := eng.dispatch_run s n
  rw [h] at hm
  rw [show s'.run = _ from hm]
  exact ⟨rfl, rfl, rfl, rfl⟩

theorem Moves.sameRun {eng : Engine σ} {s : Scene σ} {left : Nat} {l : Loop σ}
    (h : eng.Moves s left l) : s.run.SameRun l.scene.run := by
  cases h with
  | advance _ _ hd _ =>
    obtain ⟨-, hid, hsid, hglobal⟩ := eng.sameRun_of_dispatch s _ hd
    exact ⟨hid, hsid, hglobal⟩
  | enter _ _ hd =>
    obtain ⟨-, hid, hsid, hglobal⟩ := eng.sameRun_of_dispatch s _ hd
    exact ⟨hid, hsid, hglobal⟩
  | leave _ _ hr =>
    obtain ⟨f, -, rfl⟩ := Run.closeCase_eq hr
    exact ⟨rfl, rfl, rfl⟩
  | again _ _ hr =>
    obtain ⟨_, _, -, rfl⟩ := Run.closeRoot_eq hr
    exact ⟨rfl, rfl, rfl⟩

theorem Moves.fuel_lt {eng : Engine σ} {s : Scene σ} {left : Nat} {l : Loop σ}
    (h : eng.Moves s left l) : l.fuel < Loop.fuel ⟨s, left⟩ := by
  cases h with
  | advance _ hl hd _ =>
    obtain ⟨hs, -⟩ := eng.sameRun_of_dispatch s _ hd
    subst hl
    simp only [Loop.fuel, Run.withTop, hs]
    split <;> split <;> omega
  | enter _ hl hd =>
    obtain ⟨hs, -⟩ := eng.sameRun_of_dispatch s _ hd
    subst hl
    simp only [Loop.fuel, hs, Stack.root_push]
    simp only [Stack.push, List.length_cons]
    omega
  | leave _ hb hr =>
    obtain ⟨f, -, rfl⟩ := Run.closeCase_eq hr
    simp only [Loop.fuel, hb, List.length_cons]
    split <;> split <;> omega
  | again hn hb hr =>
    obtain ⟨_, i, hi, rfl⟩ := Run.closeRoot_eq hr
    have hf := Frame.isFinished_of_jump hi
    have hf' : s.run.stack.top.isFinished = true := by rw [Frame.isFinished_eq, hn]; rfl
    simp [Loop.fuel, Run.withTop, Stack.root, hb, hf, hf']

theorem fuel_lt_of_turn {l l' : Loop σ} (h : eng.turn token l = .more l') : l'.fuel < l.fuel :=
  (eng.moves_of_turn h).fuel_lt

def runLoop (token : Option String) (l : Loop σ) : Except RunError Ending × Scene σ :=
  eng.turns token l.fuel l

theorem turns_of_fuel_le {a b : Nat} {l : Loop σ} (ha : l.fuel ≤ a) (hb : l.fuel ≤ b) :
    eng.turns token a l = eng.turns token b l := by
  -- Both amounts are spent together, and neither runs out before the last turn.
  induction a generalizing b l with
  | zero => simp [Loop.fuel] at ha
  | succ a ih =>
    obtain ⟨b, rfl⟩ : ∃ k, b = k + 1 := ⟨b - 1, by simp only [Loop.fuel] at hb; omega⟩
    simp only [turns]
    cases ht : eng.turn token l with
    | done result s => rfl
    | more l' =>
      have hl := eng.fuel_lt_of_turn ht
      exact ih (by omega) (by omega)

theorem runLoop_of_done {l : Loop σ} {result : Except RunError Ending} {s : Scene σ}
    (h : eng.turn token l = .done result s) : eng.runLoop token l = (result, s) := by
  simp only [runLoop, Loop.fuel, turns, h]

theorem runLoop_of_more {l l' : Loop σ} (h : eng.turn token l = .more l') :
    eng.runLoop token l = eng.runLoop token l' := by
  have hl := eng.fuel_lt_of_turn h
  obtain ⟨k, hk⟩ : ∃ k, l.fuel = k + 1 := ⟨l.fuel - 1, by omega⟩
  simp only [runLoop, hk, turns, h]
  exact eng.turns_of_fuel_le (by omega) (Nat.le_refl _)

theorem drive_eq_runLoop (s : Scene σ) :
    eng.drive token s = eng.runLoop token ⟨s, eng.settings.maxSteps⟩ := rfl

/-- To show something of every loop, show it of the last turn, and of a turn from the next. -/
theorem loop_induction (token : Option String) {P : Loop σ → Prop}
    (done : ∀ l result s, eng.turn token l = .done result s → P l)
    (more : ∀ l l', eng.turn token l = .more l' → P l' → P l) (l : Loop σ) : P l := by
  induction hf : l.fuel using Nat.strongRecOn generalizing l with
  | ind fuel ih =>
    cases ht : eng.turn token l with
    | done result s => exact done l result s ht
    | more l' => exact more l l' ht (ih _ (hf ▸ eng.fuel_lt_of_turn ht) l' rfl)

theorem sameRun_runLoop (l : Loop σ) :
    l.scene.run.SameRun (eng.runLoop token l).2.run := by
  induction l using eng.loop_induction token with
  | done l result s ht =>
    rw [eng.runLoop_of_done ht]
    exact eng.sameRun_of_done ht
  | more l l' ht ih =>
    rw [eng.runLoop_of_more ht]
    exact (eng.moves_of_turn ht).sameRun.trans ih

theorem paused_of_runLoop {l : Loop σ} {snapshot : Snapshot} {s : Scene σ}
    (h : eng.runLoop token l = (.ok (.suspended snapshot), s)) :
    s.run.paused = some snapshot := by
  induction l using eng.loop_induction token with
  | done l result s' ht =>
    rw [eng.runLoop_of_done ht] at h
    cases h
    obtain ⟨m, p, hr, hp⟩ := eng.run_of_done ht
    rw [hr, (hp _ rfl).1]
  | more l l' ht ih =>
    rw [eng.runLoop_of_more ht] at h
    exact ih h

theorem sameRun_driveFrom (a : Attempt) (ready : Except RunError Run)
    (h : ∀ r, ready = .ok r → a.run.SameRun r) (w : σ) :
    a.run.SameRun (eng.driveFrom a ready w).2.run := by
  cases ready with
  | error e => exact .refl _
  | ok r => exact (h r rfl).trans (eng.sameRun_runLoop ⟨⟨r, w⟩, eng.settings.maxSteps⟩)

theorem paused_of_driveFrom {a : Attempt} {ready : Except RunError Run} {w : σ}
    {snapshot : Snapshot} {s : Scene σ}
    (h : eng.driveFrom a ready w = (.ok (.suspended snapshot), s)) :
    s.run.paused = some snapshot := by
  cases ready with
  | error e => cases h
  | ok r => exact eng.paused_of_runLoop h

end Engine

end Pipework
