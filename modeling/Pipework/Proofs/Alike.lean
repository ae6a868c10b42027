import Pipework.Proofs.Loop

/-!
# Loops run alike in worlds that agree

Two engines that agree take the same turns on the same run, whatever pause the run still keeps. They
come to the same end, apart from the date of a pause.
-/

namespace Pipework

variable {σ τ : Type}

def Ending.redate (d : Instant → Instant) : Ending → Ending
  | .suspended snapshot => .suspended (snapshot.redate d)
  | ending => ending

@[simp] theorem Ending.redate_id (ending : Ending) : ending.redate id = ending := by
  cases ending <;> rfl

theorem Attempt.file_congr {a : Attempt} {result : Except RunError Ending} {r r' : Run}
    (h : ∀ snapshot, result = .ok (.suspended snapshot) → r = r') (now : Instant)
    (parked : ParkedRuns) : a.file result r now parked = a.file result r' now parked := by
  cases result with
  | error e => cases e <;> rfl
  | ok ending => cases ending with
    | completed value => rfl
    | suspended snapshot => rw [h snapshot rfl]

theorem Step.redate_eq {d : Instant → Instant} {a b : Step} (h : a.redate d = b.redate d) :
    a = b ∨ ∃ x y, a = .suspend x ∧ b = .suspend y ∧ x.redate d = y.redate d := by
  cases a with
  | suspend x => cases b with
    | suspend y => exact .inr ⟨x, y, rfl, rfl, Step.suspend.inj h⟩
    | advance => cases h
    | enter => cases h
  | advance output => cases b with
    | suspend => cases h
    | advance => exact .inl h
    | enter => cases h
  | enter child => cases b with
    | suspend => cases h
    | advance => cases h
    | enter => exact .inl h

theorem map_eq_map {α β ε : Type} {f : α → β} {p q : Except ε α} (h : p.map f = q.map f) :
    (∃ e, p = .error e ∧ q = .error e) ∨ ∃ a b, p = .ok a ∧ q = .ok b ∧ f a = f b := by
  cases p with
  | error e => cases q with
    | error =>
      cases h
      exact .inl ⟨e, rfl, rfl⟩
    | ok => cases h
  | ok a => cases q with
    | error => cases h
    | ok b => exact .inr ⟨a, b, rfl, rfl, Except.ok.inj h⟩

structure Scene.Alike (R : σ → τ → Prop) (s : Scene σ) (s' : Scene τ) : Prop where
  run : ∃ p, s'.run = { s.run with paused := p }
  world : R s.world s'.world

theorem Scene.Alike.memory {R : σ → τ → Prop} {s : Scene σ} {s' : Scene τ} (h : s.Alike R s') :
    s'.run.memory = s.run.memory := by
  obtain ⟨p, hp⟩ := h.run
  rw [hp]

structure SameEnd (d : Instant → Instant) (R : σ → τ → Prop)
    (p : Except RunError Ending × Scene σ) (q : Except RunError Ending × Scene τ) : Prop where
  result : p.1.map (Ending.redate d) = q.1.map (Ending.redate d)
  scene : p.2.Alike R q.2

inductive Turn.Alike (d : Instant → Instant) (R : σ → τ → Prop) : Turn σ → Turn τ → Prop
  | more {s : Scene σ} {s' : Scene τ} (left : Nat) (hs : s.Alike R s') :
      Turn.Alike d R (.more ⟨s, left⟩) (.more ⟨s', left⟩)
  | done {result result' : Except RunError Ending} {s : Scene σ} {s' : Scene τ}
      (h : SameEnd d R (result, s) (result', s')) :
      Turn.Alike d R (.done result s) (.done result' s')

namespace Engine

variable {eng : Engine σ} {eng' : Engine τ} {d : Instant → Instant} {R : σ → τ → Prop}
  {token token' : Option String}

theorem runNode_agree {r : Run} (h : eng.Agree eng' r.id d R) (p : Option Snapshot)
    (n : Node Pipe) (left : Nat) {w : σ} {v : τ} (hw : R w v) :
    Turn.Alike d R (eng.runNode ⟨r, w⟩ n left)
      (eng'.runNode ⟨{ r with paused := p }, v⟩ n left) := by
  obtain ⟨hstep, hworld, m, hm, hm'⟩ := dispatch_agree h r.stack.below p n hw
  have he : r.over r.stack.below p = { r with paused := p } := rfl
  rw [he] at hstep hworld hm'
  unfold runNode
  rcases hd : eng.dispatch ⟨r, w⟩ n with ⟨step, r₁, w₁⟩
  rcases hd' : eng'.dispatch ⟨{ r with paused := p }, v⟩ n with ⟨step', r₂, v₁⟩
  rw [hd] at hstep hworld hm
  rw [hd'] at hstep hworld hm'
  dsimp only at hstep hworld hm hm'
  subst hm hm'
  obtain ⟨e, rfl, rfl⟩ | ⟨a, b, rfl, rfl, hab⟩ := map_eq_map hstep
  · exact .done ⟨rfl, ⟨_, rfl⟩, hworld⟩
  · obtain rfl | ⟨x, y, rfl, rfl, hxy⟩ := Step.redate_eq hab
    · cases a with
      | suspend x => exact .done ⟨rfl, ⟨_, rfl⟩, hworld⟩
      | enter child => exact .more left ⟨⟨p, rfl⟩, hworld⟩
      | advance output =>
        simp only [Run.pass]
        cases (r.stack.top.record n.name output).advance with
        | error target => exact .done ⟨rfl, ⟨_, rfl⟩, hworld⟩
        | ok f => exact .more left ⟨⟨p, rfl⟩, hworld⟩
    · refine .done ⟨?_, ⟨some y, rfl⟩, hworld⟩
      simp only [Except.map, Ending.redate, hxy]

theorem turn_agree {s : Scene σ} {s' : Scene τ} (h : eng.Agree eng' s.run.id d R)
    (hc : ∀ w v, R w v → eng'.isCancelled token' v = eng.isCancelled token w)
    (hs : s.Alike R s') (left : Nat) :
    Turn.Alike d R (eng.turn token ⟨s, left⟩) (eng'.turn token' ⟨s', left⟩) := by
  obtain ⟨r, w⟩ := s
  obtain ⟨r', v⟩ := s'
  obtain ⟨⟨p, rfl⟩, hw⟩ := hs
  have hsame (result : Except RunError Ending) : Turn.Alike d R (.done result ⟨r, w⟩)
      (.done result ⟨{ r with paused := p }, v⟩) := .done ⟨rfl, ⟨p, rfl⟩, hw⟩
  have hcancel := hc w v hw
  dsimp only at hw
  cases hcw : eng.isCancelled token w with
  | true =>
    rw [hcw] at hcancel
    rw [eng.turn_cancelled (s := ⟨r, w⟩) hcw,
      eng'.turn_cancelled (s := ⟨{ r with paused := p }, v⟩) hcancel]
    exact hsame _
  | false =>
    rw [hcw] at hcancel
    cases hn : r.stack.top.current? with
    | none =>
      cases hb : r.stack.below with
      | nil =>
        rw [eng.turn_root (s := ⟨r, w⟩) hcw hn hb,
          eng'.turn_root (s := ⟨{ r with paused := p }, v⟩) hcancel hn hb, h.evaluator]
        dsimp only
        rw [Run.closeRoot_paused r p]
        cases r.closeRoot eng.evaluator with
        | error e => exact hsame _
        | ok c => cases c with
          | inl r' => exact .more left ⟨⟨p, rfl⟩, hw⟩
          | inr value => exact hsame _
      | cons parent rest =>
        rw [eng.turn_case (s := ⟨r, w⟩) hcw hn hb,
          eng'.turn_case (s := ⟨{ r with paused := p }, v⟩) hcancel hn hb, h.evaluator]
        dsimp only
        rw [Run.closeCase_paused r p]
        cases r.closeCase eng.evaluator parent rest with
        | error e => exact hsame _
        | ok r' => exact .more left ⟨⟨p, rfl⟩, hw⟩
    | some n =>
      cases left with
      | zero =>
        rw [eng.turn_exhausted (s := ⟨r, w⟩) hcw hn,
          eng'.turn_exhausted (s := ⟨{ r with paused := p }, v⟩) hcancel hn, h.settings]
        exact hsame _
      | succ left =>
        rw [eng.turn_node (s := ⟨r, w⟩) hcw hn,
          eng'.turn_node (s := ⟨{ r with paused := p }, v⟩) hcancel hn]
        exact runNode_agree h p n left hw

theorem kept_of_turn {P : σ → Prop} {run : Run} {w : σ}
    (h : eng.services.Agree eng.services run.id d fun v v' => P v ∧ v = v') (hp : P w)
    (token : Option String) (left : Nat) :
    (∀ l, eng.turn token ⟨⟨run, w⟩, left⟩ = .more l → P l.scene.world) ∧
      ∀ result t, eng.turn token ⟨⟨run, w⟩, left⟩ = .done result t → P t.world := by
  have hcancel (v v' : σ) (hv : P v ∧ v = v') :
      eng.isCancelled token v' = eng.isCancelled token v := by rw [hv.2]
  have hagree : eng.Agree eng run.id d fun v v' => P v ∧ v = v' := ⟨h, rfl, rfl⟩
  -- The turn compared with itself: what its calls keep to is in the relation.
  have hturn := turn_agree (s := ⟨run, w⟩) hagree hcancel ⟨⟨_, rfl⟩, hp, rfl⟩ left
  constructor
  · intro l hl
    rw [hl] at hturn
    cases hturn with
    | more left hs => exact hs.world.1
  · intro result t ht
    rw [ht] at hturn
    cases hturn with
    | done he => exact he.scene.world.1

theorem runLoop_agree {s : Scene σ} {s' : Scene τ} (h : eng.Agree eng' s.run.id d R)
    (hc : ∀ w v, R w v → eng'.isCancelled token' v = eng.isCancelled token w)
    (hs : s.Alike R s') (left : Nat) :
    SameEnd d R (eng.runLoop token ⟨s, left⟩) (eng'.runLoop token' ⟨s', left⟩) := by
  generalize hl : (⟨s, left⟩ : Loop σ) = l
  -- Turn by turn: the second loop takes the same kind of turn, and the scenes stay alike.
  induction l using eng.loop_induction token generalizing s s' left with
  | done l result t ht =>
    subst hl
    have ha := turn_agree h hc hs left
    rw [ht] at ha
    generalize ht' : eng'.turn token' ⟨s', left⟩ = turn' at ha
    cases ha with
    | done he =>
      rw [eng.runLoop_of_done ht, eng'.runLoop_of_done ht']
      exact he
  | more l l₁ ht ih =>
    subst hl
    have ha := turn_agree h hc hs left
    have hid := (eng.moves_of_turn ht).sameRun.id
    rw [ht] at ha
    generalize ht' : eng'.turn token' ⟨s', left⟩ = turn' at ha
    cases ha with
    | more left₁ hs₁ =>
      rw [eng.runLoop_of_more ht, eng'.runLoop_of_more ht']
      rw [← show _ = s.run.id from hid] at h
      exact ih h hs₁ left₁ rfl

theorem driveFrom_agree {ready : Except RunError Run} (a : Attempt)
    (h : eng.Agree eng' a.run.id d R)
    (hc : ∀ w v, R w v → eng'.isCancelled a.token v = eng.isCancelled a.token w)
    (hready : ∀ r, ready = .ok r → r.id = a.run.id) {w : σ} {v : τ} (hw : R w v) :
    SameEnd d R (eng.driveFrom a ready w) (eng'.driveFrom a ready v) := by
  cases ready with
  | error e => exact ⟨rfl, ⟨_, rfl⟩, hw⟩
  | ok r =>
    rw [← hready r rfl] at h
    simp only [driveFrom, drive_eq_runLoop, h.settings]
    exact runLoop_agree (s := ⟨r, w⟩) h hc ⟨⟨_, rfl⟩, hw⟩ _

end Engine

end Pipework
