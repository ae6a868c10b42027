import Pipework.Proofs.Answering
import Pipework.Proofs.Calls
import Pipework.Proofs.Course

/-!
# The limit only cuts a call off

Nothing but the turn that finds the limit used up looks at the limit. A loop that may run more nodes
takes the turns of the shorter one first, and goes on where that one has been cut off.
-/

namespace Pipework

variable {σ : Type}

theorem Attempt.get?_settle_stepLimit (a : Attempt) (id : String) (limit : Nat) (run : Run)
    (now : Instant) (parked : ParkedRuns) :
    (a.settle (.error (.stepLimitExceeded id limit)) run now parked).get? a.run.id = none := by
  simp [settle, file, get?_abandon, ParkedRuns.get?_remove]

namespace Engine

def limited (eng : Engine σ) (limit : Nat) : Engine σ :=
  { eng with settings := { eng.settings with maxSteps := limit } }

variable (eng : Engine σ) {token : Option String}

theorem turn_limited (limit : Nat) {l : Loop σ} (h : eng.wantsNode token l = true → l.left ≠ 0) :
    (eng.limited limit).turn token l = eng.turn token l := by
  obtain ⟨s, left⟩ := l
  have hcancel : (eng.limited limit).isCancelled token s.world = eng.isCancelled token s.world :=
    rfl
  cases hc : eng.isCancelled token s.world with
  | true =>
    rw [turn_cancelled _ hc, turn_cancelled _ (hcancel.trans hc)]
  | false =>
    cases hn : s.run.stack.top.current? with
    | some n =>
      obtain ⟨left, rfl⟩ := Nat.exists_eq_succ_of_ne_zero (h (wantsNode_eq_true.mpr ⟨hc, n, hn⟩))
      rw [turn_node _ hc hn, turn_node _ (hcancel.trans hc) hn]
      rfl
    | none =>
      cases hb : s.run.stack.below with
      | nil =>
        rw [turn_root _ hc hn hb, turn_root _ (hcancel.trans hc) hn hb]
        rfl
      | cons parent rest =>
        rw [turn_case _ hc hn hb, turn_case _ (hcancel.trans hc) hn hb]
        rfl

theorem turn_limited_later (limit k : Nat) {l : Loop σ}
    (h : eng.wantsNode token l = true → l.left ≠ 0) :
    (eng.limited limit).turn token ⟨l.scene, l.left + k⟩ = (eng.turn token l).later k := by
  have hlater : eng.wantsNode token ⟨l.scene, l.left + k⟩ = true → l.left + k ≠ 0 := fun hwants =>
    Nat.ne_of_gt (Nat.add_pos_left (Nat.pos_of_ne_zero (h hwants)) k)
  rw [eng.turn_limited limit (l := ⟨l.scene, l.left + k⟩) hlater]
  refine eng.turn_later l.scene l.left k fun t ht => ?_
  obtain ⟨hwants, hzero⟩ := (stepLimit_of_done ht).mp ⟨_, _, rfl⟩
  exact h hwants hzero

/-- A loop that may run `k` nodes more goes on where the other one has been cut off. -/
theorem runLoop_limited (limit k : Nat) (l : Loop σ) :
    (eng.limited limit).runLoop token ⟨l.scene, l.left + k⟩ =
      if overLimit (eng.runLoop token l).1 then
        (eng.limited limit).runLoop token ⟨(eng.runLoop token l).2, k⟩
      else eng.runLoop token l := by
  induction l using eng.loop_induction token with
  | done l result t ht =>
    rw [eng.runLoop_of_done ht]
    cases hover : overLimit result with
    | true =>
      -- Cut off here: no node has been run, and `k` more may be.
      obtain ⟨id, limit', rfl⟩ := exists_of_overLimit hover
      obtain ⟨hwants, hzero⟩ := (stepLimit_of_done ht).mp ⟨_, _, rfl⟩
      cases eng.ends_of_turn ht with
      | exhausted => simp only [hzero, Nat.zero_add, if_true]
      | failed _ _ hleft _ => exact absurd hzero hleft
      | astray _ _ hleft _ _ => exact absurd hzero hleft
      | caseFailed _ hn _ _ | rootFailed _ hn _ _ =>
        obtain ⟨-, n, hn'⟩ := wantsNode_eq_true.mp hwants
        rw [Run.current?, hn] at hn'
        cases hn'
    | false =>
      have hleft : eng.wantsNode token l = true → l.left ≠ 0 := fun hwants hzero => by
        obtain ⟨id, limit', rfl⟩ := (stepLimit_of_done ht).mpr ⟨hwants, hzero⟩
        cases hover
      have hturn := eng.turn_limited_later limit k hleft
      rw [ht] at hturn
      exact runLoop_of_done _ hturn
  | more l l' ht ih =>
    have hleft : eng.wantsNode token l = true → l.left ≠ 0 := fun hwants hzero => by
      obtain ⟨hl, -⟩ := left_of_more ht
      rw [hwants, hzero] at hl
      exact absurd hl (by simp)
    have hturn := eng.turn_limited_later limit k hleft
    rw [ht] at hturn
    rw [runLoop_of_more _ hturn, eng.runLoop_of_more ht]
    exact ih

theorem drive_limited (limit k : Nat) (s : Scene σ) :
    (eng.limited (limit + k)).drive token s =
      if overLimit ((eng.limited limit).drive token s).1 then
        (eng.limited (limit + k)).runLoop token ⟨((eng.limited limit).drive token s).2, k⟩
      else (eng.limited limit).drive token s :=
  (eng.limited limit).runLoop_limited (limit + k) k ⟨s, limit⟩

theorem made_runLoop (token : Option String) (l : Loop (σ × List Call)) :
    Made (fun _ => True) l.scene.world (eng.traced.runLoop token l).2.world := by
  induction l using eng.traced.loop_induction token with
  | done l result t ht =>
    have hmade := (eng.made_turn token l).mono fun _ _ => trivial
    rw [ht] at hmade
    rw [eng.traced.runLoop_of_done ht]
    exact hmade
  | more l l' ht ih =>
    have hmade := (eng.made_turn token l).mono fun _ _ => trivial
    rw [ht] at hmade
    rw [eng.traced.runLoop_of_more ht]
    exact hmade.trans ih

theorem Course.countP_runsNode {eng : Engine σ} {l : Loop σ} {heads : List (Loop σ)}
    {out : Except RunError Ending × Scene σ} (h : eng.Course token l heads out)
    (hover : overLimit out.1 = true) : heads.countP (eng.runsNode token) = l.left := by
  induction h with
  | @done l _ _ ht =>
    obtain ⟨-, hzero⟩ := (stepLimit_of_done ht).mp (exists_of_overLimit hover)
    simp [runsNode, hzero]
  | @more l l' _ _ ht _ ih =>
    obtain ⟨hleft, hruns⟩ := left_of_more ht
    rw [List.countP_cons, ih hover, hruns, hleft]
    cases eng.wantsNode token l <;> rfl

/-- A call that may run `limit` nodes, beside the same call that may run more. -/
structure CutOff (limit : Nat) (a : Attempt) (ready : Except RunError Run) (w : σ × List Call)
    (short long : Except RunError Ending × ParkedRuns × (σ × List Call)) : Prop where
  within : (∀ id k, short.1 ≠ .error (.stepLimitExceeded id k)) → long = short
  dispatched {id : String} {k : Nat} : short.1 = .error (.stepLimitExceeded id k) →
    ∃ run heads, ready = .ok run ∧
      (eng.traced.limited limit).Course a.token ⟨⟨run, w⟩, limit⟩ heads
        ((eng.traced.limited limit).drive a.token ⟨run, w⟩) ∧
      heads.countP ((eng.traced.limited limit).runsNode a.token) = limit
  calls {id : String} {k : Nat} : short.1 = .error (.stepLimitExceeded id k) →
    short.2.2.2 <+: long.2.2.2
  forgotten {id : String} {k : Nat} : short.1 = .error (.stepLimitExceeded id k) →
    short.2.1.get? a.run.id = none

theorem CutOff.same {eng : Engine σ} {limit : Nat} {a : Attempt} {ready : Except RunError Run}
    {w : σ × List Call} {out : Except RunError Ending × ParkedRuns × (σ × List Call)}
    (h : ∀ id k, out.1 ≠ .error (.stepLimitExceeded id k)) :
    eng.CutOff limit a ready w out out :=
  ⟨fun _ => rfl, fun he => absurd he (h _ _), fun he => absurd he (h _ _),
    fun he => absurd he (h _ _)⟩

theorem cutOff_driveFrom {limit limit' : Nat} (hle : limit ≤ limit') (a : Attempt)
    {ready : Except RunError Run} (hready : ∀ id k, ready ≠ .error (.stepLimitExceeded id k))
    (parked : ParkedRuns) (w : σ × List Call) :
    eng.CutOff limit a ready w
      ((eng.traced.limited limit).conclude a parked
        ((eng.traced.limited limit).driveFrom a ready w))
      ((eng.traced.limited limit').conclude a parked
        ((eng.traced.limited limit').driveFrom a ready w)) := by
  cases ready with
  | error e =>
    refine .same fun id k he => ?_
    cases he
    exact hready id k rfl
  | ok run =>
    obtain ⟨k, rfl⟩ := Nat.exists_eq_add_of_le hle
    obtain ⟨heads, hcourse⟩ := Course.exists_course (eng.traced.limited limit) a.token
      ⟨⟨run, w⟩, limit⟩
    simp only [driveFrom, drive_limited]
    set short := (eng.traced.limited limit).drive a.token ⟨run, w⟩
    cases hover : overLimit short.1 with
    | false =>
      refine .same fun id k he => ?_
      rw [show short.1 = _ from he] at hover
      cases hover
    | true =>
      obtain ⟨id, k', hresult⟩ := exists_of_overLimit hover
      obtain ⟨new, hnew, -⟩ := (eng.limited (limit + k)).made_runLoop a.token ⟨short.2, k⟩
      refine ⟨fun hne => absurd hresult (hne id k'), fun _ => ?_, fun _ => ?_, fun _ => ?_⟩
      · exact ⟨run, heads, rfl, hcourse, hcourse.countP_runsNode hover⟩
      · exact ⟨new, hnew.symm⟩
      · simp only [conclude]
        rw [show short.1 = _ from hresult]
        exact a.get?_settle_stepLimit id k' _ _ parked

/-- A call that does not exceed its limit is the same call under every higher limit: the same
result, the same calls, the same runs parked. One that does has run as many nodes as it might, has
made the first of the calls that it would have made, and leaves no entry of its run. -/
theorem limit_cuts_off {limit limit' : Nat} (hle : limit ≤ limit') (a : Attempt)
    (values : List Json) (parked : ParkedRuns) (w : σ × List Call) :
    eng.CutOff limit a (a.run.restart eng.evaluator values) w
        ((eng.traced.limited limit).exec a values parked w)
        ((eng.traced.limited limit').exec a values parked w) ∧
      eng.CutOff limit a (a.run.answer eng.evaluator values) w
        ((eng.traced.limited limit).resume a values parked w)
        ((eng.traced.limited limit').resume a values parked w) := by
  constructor
  · refine eng.cutOff_driveFrom hle a (fun id k hr => ?_) parked w
    obtain ⟨x, he⟩ := Run.restart_error hr
    cases he
  · unfold resume
    cases a.run.paused with
    | none => exact ⟨fun _ => rfl, nofun, nofun, nofun⟩
    | some x => exact eng.cutOff_driveFrom hle a Run.answer_ne_stepLimit parked w

end Engine

def endlessAttempt : Attempt := .create "r" endlessPipe

theorem limit_cuts_off_endlessAttempt :
    let short := (countingEngine.limited 10).traced.exec endlessAttempt [] .empty (0, [])
    let long := (countingEngine.limited 20).traced.exec endlessAttempt [] .empty (0, [])
    10 ≤ 20 ∧ countingEngine.CutOff 10 endlessAttempt
        (endlessAttempt.run.restart countingEngine.evaluator []) (0, []) short long ∧
      overLimit short.1 = true ∧ short.2.2.2.length = 10 ∧ long.2.2.2.length = 20 := by
  obtain ⟨hexec, -⟩ := countingEngine.limit_cuts_off (by decide : 10 ≤ 20) endlessAttempt [] .empty
    (0, [])
  exact ⟨by decide, hexec, by decide +kernel, by decide +kernel, by decide +kernel⟩

end Pipework
