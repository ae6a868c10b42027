import Pipework.Proofs.Trace

/-!
# A loop in which every pause is answered at once

`Engine.carryOn` goes on after a pause with the next answer, in the same loop and on what is left of
its limit. A loop that stops at the pause takes the same turns up to there, and it needs no more of
a limit than that.
-/

namespace Pipework

variable {σ τ : Type}

def Turn.later (k : Nat) : Turn σ → Turn σ
  | .more l => .more { l with left := l.left + k }
  | .done result s => .done result s

namespace Engine

variable (eng : Engine σ) {token : Option String}

theorem turn_later (s : Scene σ) (left k : Nat)
    (h : ∀ t, eng.turn token ⟨s, left⟩ ≠
      .done (.error (.stepLimitExceeded s.run.id eng.settings.maxSteps)) t) :
    eng.turn token ⟨s, left + k⟩ = (eng.turn token ⟨s, left⟩).later k := by
  cases hc : eng.isCancelled token s.world with
  | true => rw [eng.turn_cancelled hc, eng.turn_cancelled hc, Turn.later]
  | false =>
    cases hn : s.run.stack.top.current? with
    | some n =>
      cases left with
      | zero => exact absurd (eng.turn_exhausted hc hn) (h s)
      | succ left =>
        rw [show left + 1 + k = left + k + 1 by omega, eng.turn_node hc hn, eng.turn_node hc hn]
        unfold runNode
        rcases eng.dispatch s n with ⟨step, t⟩
        cases step with
        | error e => rfl
        | ok step =>
          cases step with
          | suspend snapshot => rfl
          | enter child => rfl
          | advance output =>
            dsimp only
            cases t.run.pass n.name output <;> rfl
    | none =>
      cases hb : s.run.stack.below with
      | nil =>
        rw [eng.turn_root hc hn hb, eng.turn_root hc hn hb]
        cases s.run.closeRoot eng.evaluator with
        | error e => rfl
        | ok r => cases r <;> rfl
      | cons parent rest =>
        rw [eng.turn_case hc hn hb, eng.turn_case hc hn hb]
        cases s.run.closeCase eng.evaluator parent rest <;> rfl

/-- Takes turns until one is the last. After a pause the loop goes on with the next answer. -/
def carryOn (token : Option String) (answers : List (List Json)) (l : Loop σ) :
    Except RunError Ending × Scene σ :=
  match _h : eng.turn token l with
  | .more l' => carryOn token answers l'
  | .done (.ok (.suspended snapshot)) s => match answers with
    | [] => (.ok (.suspended snapshot), s)
    | a :: answers => match s.run.answer eng.evaluator a with
      | .error e => (.error e, s)
      | .ok run => carryOn token answers ⟨{ s with run := run }, l.left - 1⟩
  | .done result s => (result, s)
-- A pause uses up an answer; every other turn makes the fuel smaller.
termination_by (answers.length, l.fuel)
decreasing_by
  · exact Prod.Lex.right _ (eng.fuel_lt_of_turn _h)
  · exact Prod.Lex.left _ _ (Nat.lt_succ_self _)

def carryFrom (token : Option String) (answers : List (List Json)) (ready : Except RunError Run)
    (s : Scene σ) (left : Nat) : Except RunError Ending × Scene σ :=
  match ready with
  | .error e => (.error e, s)
  | .ok run => eng.carryOn token answers ⟨{ s with run := run }, left⟩

section

variable {l l' : Loop σ} {s : Scene σ} {answers : List (List Json)}

theorem carryOn_of_more (h : eng.turn token l = .more l') :
    eng.carryOn token answers l = eng.carryOn token answers l' := by
  rw [carryOn]
  split
  next h' =>
    rw [h] at h'
    cases h'
    rfl
  next h' =>
    rw [h] at h'
    cases h'
  next h' =>
    rw [h] at h'
    cases h'

theorem carryOn_of_done {result : Except RunError Ending}
    (h : eng.turn token l = .done result s) (hr : ∀ snapshot, result ≠ .ok (.suspended snapshot)) :
    eng.carryOn token answers l = (result, s) := by
  rw [carryOn]
  split
  next h' =>
    rw [h] at h'
    cases h'
  next snapshot _ h' =>
    rw [h] at h'
    cases h'
    exact absurd rfl (hr snapshot)
  next h' =>
    rw [h] at h'
    cases h'
    rfl

theorem carryOn_of_paused {snapshot : Snapshot}
    (h : eng.turn token l = .done (.ok (.suspended snapshot)) s) :
    eng.carryOn token answers l = match answers with
      | [] => (.ok (.suspended snapshot), s)
      | a :: answers =>
        eng.carryFrom token answers (s.run.answer eng.evaluator a) s (l.left - 1) := by
  rw [carryOn]
  split
  next h' =>
    rw [h] at h'
    cases h'
  next h' =>
    rw [h] at h'
    cases h'
    cases answers with
    | nil => rfl
    | cons a answers =>
      dsimp only
      cases s.run.answer eng.evaluator a <;> rfl
  next hne h' =>
    rw [h] at h'
    cases h'
    exact absurd rfl (hne snapshot)

end

def Carries (d : Instant → Instant) (R : σ → σ → Prop) (token : Option String)
    (answers : List (List Json)) (left left' : Nat) (p u : Except RunError Ending × Scene σ) :
    Prop :=
  match p.1, answers with
  | .ok (.suspended _), a :: answers => ∃ t k, p.2.Alike R t ∧ left' ≤ k + left ∧
      u = eng.carryFrom token answers (t.run.answer eng.evaluator a) t k
  | _, _ => SameEnd d R p u

variable {d : Instant → Instant} {R : σ → σ → Prop} {token' : Option String}

theorem Carries.shift {eng : Engine σ} {answers : List (List Json)} {a k : Nat}
    {p u : Except RunError Ending × Scene σ}
    (h : eng.Carries d R token answers a (a + k) p u) (b : Nat) :
    eng.Carries d R token answers b (b + k) p u := by
  obtain ⟨result, s⟩ := p
  cases result with
  | error e => exact h
  | ok ending =>
    cases ending with
    | completed value => exact h
    | suspended snapshot =>
      cases answers with
      | nil => exact h
      | cons answer answers =>
        obtain ⟨t, left, ht, hle, hu⟩ := h
        exact ⟨t, left, ht, by omega, hu⟩

theorem Carries.sameEnd {eng : Engine σ} {answers : List (List Json)} {left left' : Nat}
    {p u : Except RunError Ending × Scene σ}
    (h : eng.Carries d R token answers left left' p u)
    (hover : answers = [] ∨ ∀ snapshot, p.1 ≠ .ok (.suspended snapshot)) : SameEnd d R p u := by
  unfold Carries at h
  split at h
  next snapshot _ _ hp =>
    obtain hnil | hne := hover
    · cases hnil
    · exact absurd hp (hne snapshot)
  next => exact h

theorem carries_of_done {l : Loop σ} {s t t' : Scene σ} {left left' : Nat}
    {result result' : Except RunError Ending} {answers : List (List Json)}
    (ht : eng.turn token ⟨s, left⟩ = .done result t)
    (ht' : eng.turn token' l = .done result' t') (hl : l.left = left')
    (he : SameEnd d R (result, t) (result', t')) :
    eng.Carries d R token' answers left left' (result, t) (eng.carryOn token' answers l) := by
  obtain ⟨e, rfl, rfl⟩ | ⟨x, y, rfl, rfl, hxy⟩ := map_eq_map he.result
  · rw [eng.carryOn_of_done ht' (by simp)]
    cases answers <;> exact he
  · cases x with
    | completed value =>
      cases y with
      | completed =>
        rw [eng.carryOn_of_done ht' (by simp)]
        cases answers <;> exact he
      | suspended => cases hxy
    | suspended snapshot =>
      cases y with
      | completed => cases hxy
      | suspended snapshot' =>
        rw [eng.carryOn_of_paused ht']
        cases answers with
        | nil => exact he
        | cons a answers =>
          -- The turn that paused took a step, so one of `left` is spent in either loop.
          obtain ⟨_, _, -, hleft⟩ := eng.run_of_done ht
          have hpos := (hleft snapshot rfl).2
          refine ⟨t', l.left - 1, he.scene, ?_, rfl⟩
          dsimp only at hpos
          omega

theorem carryOn_agree {s s' : Scene σ} (h : eng.Agree eng s.run.id d R)
    (hc : ∀ w v, R w v → eng.isCancelled token' v = eng.isCancelled token w) (hs : s.Alike R s')
    {left left' : Nat} (hle : left ≤ left')
    (hlimit : ∀ id k, (eng.runLoop token ⟨s, left⟩).1 ≠ .error (.stepLimitExceeded id k))
    (answers : List (List Json)) :
    eng.Carries d R token' answers left left' (eng.runLoop token ⟨s, left⟩)
      (eng.carryOn token' answers ⟨s', left'⟩) := by
  -- Along the loop that stops at the pause. The other one has `left' - left` more at every turn.
  generalize hl : (⟨s, left⟩ : Loop σ) = l at hlimit ⊢
  induction l using eng.loop_induction token generalizing s s' left left' with
  | done l result t ht =>
    subst hl
    have ha := turn_agree h hc hs left
    rw [ht] at ha
    generalize ht' : eng.turn token' ⟨s', left⟩ = turn' at ha
    cases ha with
    | @done _ result' _ t' he =>
      rw [eng.runLoop_of_done ht] at hlimit ⊢
      have hlater := eng.turn_later s' left (left' - left) fun t₁ ht₁ => by
        rw [ht'] at ht₁
        cases ht₁
        obtain ⟨e, rfl, he'⟩ | ⟨_, _, -, hb, -⟩ := map_eq_map he.result
        · cases he'
          exact hlimit _ _ rfl
        · cases hb
      rw [show left + (left' - left) = left' by omega, ht', Turn.later] at hlater
      exact eng.carries_of_done ht hlater rfl he
  | more l l₁ ht ih =>
    subst hl
    have ha := turn_agree h hc hs left
    have hid := (eng.moves_of_turn ht).sameRun.id
    rw [ht] at ha
    generalize ht' : eng.turn token' ⟨s', left⟩ = turn' at ha
    cases ha with
    | @more s₁ s₁' left₁ hs₁ =>
      have hlater := eng.turn_later s' left (left' - left) fun t₁ ht₁ => by
        rw [ht'] at ht₁
        cases ht₁
      rw [show left + (left' - left) = left' by omega, ht', Turn.later] at hlater
      rw [eng.runLoop_of_more ht] at hlimit ⊢
      rw [eng.carryOn_of_more hlater]
      rw [← show _ = s.run.id from hid] at h
      have hcarries := ih h hs₁ (Nat.le_add_right left₁ (left' - left)) rfl hlimit
      have hshift := hcarries.shift left
      rwa [show left + (left' - left) = left' by omega] at hshift

theorem carryFrom_agree (a : Attempt) {ready : Except RunError Run} {w : σ} {s' : Scene σ}
    (h : eng.Agree eng a.run.id d R)
    (hc : ∀ w v, R w v → eng.isCancelled token' v = eng.isCancelled a.token w)
    (hready : ∀ r, ready = .ok r → r.id = a.run.id) (hs : Scene.Alike R ⟨a.run, w⟩ s')
    {left' : Nat} (hle : eng.settings.maxSteps ≤ left')
    (hlimit : ∀ id k, (eng.driveFrom a ready w).1 ≠ .error (.stepLimitExceeded id k))
    (answers : List (List Json)) :
    eng.Carries d R token' answers eng.settings.maxSteps left' (eng.driveFrom a ready w)
      (eng.carryFrom token' answers ready s' left') := by
  cases ready with
  | error e => cases answers <;> exact ⟨rfl, hs⟩
  | ok r =>
    rw [← hready r rfl] at h
    have hs' : Scene.Alike R ⟨r, w⟩ { s' with run := r } := ⟨⟨_, rfl⟩, hs.world⟩
    exact eng.carryOn_agree (s := ⟨r, w⟩) h hc hs' hle hlimit answers

end Engine

end Pipework
