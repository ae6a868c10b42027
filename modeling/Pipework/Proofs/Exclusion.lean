import Pipework.Proofs.History

/-!
# What was parked once is carried on once

Every opening is of one parking of a run. `System.Exclusive` says that of all attempts opened from
one parking at most one is still under way or has come to an end that was no cancellation.
-/

namespace Pipework

variable {σ : Type}

namespace System

variable {s s' : System σ}

/-- The attempt under this lease is under way, or has come to an end that was no cancellation. -/
def Active (s : System σ) (lease : Nat) : Prop :=
  (∃ h x, s.hands h = some x ∧ x.stage ≠ .settled ∧ x.attempt.lease = some lease) ∨
    ∃ id result, .ended id (some lease) result ∈ s.log ∧ wasCancelled result = false

structure Exclusive (s : System σ) : Prop where
  opened {id : String} {lease : Option Nat} {k : Nat} : .opened id lease k ∈ s.log →
    (∃ n, lease = some n ∧ n ≤ s.parked.leases) ∧ k ≤ parkings id s.log ∧
      ∃ y ∈ s.log, y.parks id = true
  given {id : String} {n : Nat} {result : Except RunError Ending} :
    .ended id (some n) result ∈ s.log → n ≤ s.parked.leases
  ended_id {id id' : String} {n k : Nat} {result : Except RunError Ending} :
    .opened id (some n) k ∈ s.log → .ended id' (some n) result ∈ s.log → id' = id
  hand_id {id : String} {n k h : Nat} {x : Hand} : .opened id (some n) k ∈ s.log →
    s.hands h = some x → x.attempt.lease = some n → x.attempt.run.id = id
  /-- What is under way has not ended. -/
  live {id : String} {n h : Nat} {x : Hand} {result : Except RunError Ending} :
    s.hands h = some x → x.stage ≠ .settled → x.attempt.lease = some n →
    .ended id (some n) result ∉ s.log
  /-- No attempt ends twice. -/
  once {i j : Nat} {id id' : String} {n : Nat} {r r' : Except RunError Ending} :
    s.log[i]? = some (.ended id (some n) r) → s.log[j]? = some (.ended id' (some n) r') → i = j
  /-- After an end that was no cancellation the parking that was opened is no more. -/
  spent {id id' : String} {n k : Nat} {result : Except RunError Ending} :
    .opened id (some n) k ∈ s.log → .ended id' (some n) result ∈ s.log →
    wasCancelled result = false → s.parked.get? id = none ∨ k < parkings id s.log
  apart {id : String} {n m k : Nat} : .opened id (some n) k ∈ s.log →
    .opened id (some m) k ∈ s.log → s.Active n → s.Active m → n = m

end System

def Event.Apart : Event → Prop
  | parked _ => True
  | opened .. => False
  | ended _ lease _ => lease = none
  | closed _ => True
  | pruned _ => True

theorem parkings_append (id : String) (log events : List Event) :
    parkings id (log ++ events) = parkings id log + parkings id events :=
  List.countP_append

namespace System

variable {s s' : System σ}

section

variable {events : List Event} (hlog : s'.log = s.log ++ events) (ha : ∀ y ∈ events, y.Apart)
include hlog ha

theorem opened_mem {id : String} {lease : Option Nat} {k : Nat} (h : .opened id lease k ∈ s'.log) :
    .opened id lease k ∈ s.log := by
  rw [hlog] at h
  exact (List.mem_append.mp h).elim (fun h => h) fun h => (ha _ h).elim

theorem ended_mem {id : String} {n : Nat} {result : Except RunError Ending}
    (h : .ended id (some n) result ∈ s'.log) : .ended id (some n) result ∈ s.log := by
  rw [hlog] at h
  exact (List.mem_append.mp h).elim (fun h => h) fun h => by cases ha _ h

theorem ended_at {id : String} {n i : Nat} {result : Except RunError Ending}
    (h : s'.log[i]? = some (.ended id (some n) result)) :
    s.log[i]? = some (.ended id (some n) result) := by
  rw [hlog, List.getElem?_append] at h
  split at h
  · exact h
  · cases ha _ (List.mem_of_getElem? h)

theorem active_of (hk : ∀ k x', s'.hands k = some x' →
      (∃ x, s.hands k = some x ∧ x'.Stems x) ∨ x'.attempt.lease = none)
    {n : Nat} (h : s'.Active n) : s.Active n := by
  obtain ⟨k, x', hx', hn, hl⟩ | ⟨id, result, hmem, hc⟩ := h
  · obtain ⟨x, hx, hst⟩ | hnone := hk k x' hx'
    · exact .inl ⟨k, x, hx, (hst.live hn).1, hst.lease ▸ hl⟩
    · rw [hnone] at hl
      cases hl
  · exact .inr ⟨id, result, ended_mem hlog ha hmem, hc⟩

theorem Exclusive.quiet (hx : s.Exclusive) (hl : s'.parked.leases = s.parked.leases)
    (hk : ∀ k x', s'.hands k = some x' →
      (∃ x, s.hands k = some x ∧ x'.Stems x) ∨ x'.attempt.lease = none)
    (hgone : ∀ id, s.parked.get? id = none → (∃ y ∈ s.log, y.parks id = true) →
      s'.parked.get? id = none) : s'.Exclusive where
  opened hmem := by
    obtain ⟨hn, hle, y, hy, hp⟩ := hx.opened (opened_mem hlog ha hmem)
    rw [hl, hlog, parkings_append]
    exact ⟨hn, Nat.le_add_right_of_le hle, y, List.mem_append_left _ hy, hp⟩
  given hmem := hl ▸ hx.given (ended_mem hlog ha hmem)
  ended_id ho he := hx.ended_id (opened_mem hlog ha ho) (ended_mem hlog ha he)
  hand_id {id n k h x'} ho hx' hxl := by
    obtain ⟨x, hxs, hst⟩ | hnone := hk h x' hx'
    · exact hst.id.trans (hx.hand_id (opened_mem hlog ha ho) hxs (hst.lease ▸ hxl))
    · rw [hnone] at hxl
      cases hxl
  live {id n h x' result} hx' hn hxl hmem := by
    obtain ⟨x, hxs, hst⟩ | hnone := hk h x' hx'
    · exact hx.live hxs (hst.live hn).1 (hst.lease ▸ hxl) (ended_mem hlog ha hmem)
    · rw [hnone] at hxl
      cases hxl
  once hi hj := hx.once (ended_at hlog ha hi) (ended_at hlog ha hj)
  spent {id id' n k result} ho he hc := by
    have ho := opened_mem hlog ha ho
    rw [hlog, parkings_append]
    obtain hnone | hlt := hx.spent ho (ended_mem hlog ha he) hc
    · exact .inl (hgone id hnone (hx.opened ho).2.2)
    · exact .inr (Nat.lt_add_right _ hlt)
  apart ho ho' hn hm :=
    hx.apart (opened_mem hlog ha ho) (opened_mem hlog ha ho') (active_of hlog ha hk hn)
      (active_of hlog ha hk hm)

end

section

variable {log extra : List Event} {e : Event} (ha : ∀ y ∈ extra, y.Apart)
include ha

theorem opened_mem_cons {id : String} {lease : Option Nat} {k : Nat}
    (h : .opened id lease k ∈ log ++ e :: extra) :
    .opened id lease k ∈ log ∨ .opened id lease k = e := by
  obtain h | h := List.mem_append.mp h
  · exact .inl h
  · obtain h | h := List.mem_cons.mp h
    · exact .inr h
    · exact (ha _ h).elim

theorem ended_mem_cons {id : String} {n : Nat} {result : Except RunError Ending}
    (h : .ended id (some n) result ∈ log ++ e :: extra) :
    .ended id (some n) result ∈ log ∨ .ended id (some n) result = e := by
  obtain h | h := List.mem_append.mp h
  · exact .inl h
  · obtain h | h := List.mem_cons.mp h
    · exact .inr h
    · cases ha _ h

theorem ended_at_cons {id : String} {n i : Nat} {result : Except RunError Ending}
    (h : (log ++ e :: extra)[i]? = some (.ended id (some n) result)) :
    log[i]? = some (.ended id (some n) result) ∨
      i = log.length ∧ .ended id (some n) result = e := by
  rw [List.getElem?_append] at h
  split at h
  · exact .inl h
  next hlen =>
    cases hi : i - log.length with
    | zero =>
      rw [hi, List.getElem?_cons_zero] at h
      exact .inr ⟨by omega, (Option.some.inj h).symm⟩
    | succ j =>
      rw [hi, List.getElem?_cons_succ] at h
      cases ha _ (List.mem_of_getElem? h)

end

theorem Exclusive.not_active (hx : s.Exclusive) (hs : s.Sound) {id : String} {e : Entry} {n : Nat}
    (he : s.parked.get? id = some e) (hfree : e.lease = none)
    (ho : .opened id (some n) (parkings id s.log) ∈ s.log) : ¬ s.Active n := by
  rintro (⟨h, x, hxs, hn, hl⟩ | ⟨id', result, hmem, hc⟩)
  · obtain rfl := hx.hand_id ho hxs hl
    obtain ⟨hel, hsome⟩ := hs.holds hxs hn he
    rw [hfree] at hsome
    cases hsome
  · obtain hnone | hlt := hx.spent ho hmem hc
    · rw [he] at hnone
      cases hnone
    · exact Nat.lt_irrefl _ hlt

theorem Exclusive.opened_step (hx : s.Exclusive) (hs : s.Sound) (hr : s.Recorded) {id : String}
    {a : Attempt} {parked : ParkedRuns} (ht : Attempt.takeUp s.parked id = .ok (a, parked)) :
    (({ s with parked := parked }.hold a).keep
      [.opened id a.lease (parkings id s.log)]).Exclusive := by
  obtain ⟨e, he, hfree, rfl, rfl⟩ := takeUp_ok ht
  obtain ⟨hrun, -, -⟩ := hs.entry he
  have hcount (other : String) :
      parkings other (s.log ++ [.opened id (some (s.parked.leases + 1)) (parkings id s.log)]) =
        parkings other s.log := by
    rw [parkings_append]
    rfl
  have hopened {other : String} {lease : Option Nat} {k : Nat}
      (h : .opened other lease k ∈
        s.log ++ [.opened id (some (s.parked.leases + 1)) (parkings id s.log)]) :
      .opened other lease k ∈ s.log ∨
        other = id ∧ lease = some (s.parked.leases + 1) ∧ k = parkings id s.log := by
    refine (opened_mem_cons (by simp) h).imp_right fun h => ?_
    cases h
    exact ⟨rfl, rfl, rfl⟩
  have hended {other : String} {n : Nat} {result : Except RunError Ending}
      (h : .ended other (some n) result ∈
        s.log ++ [.opened id (some (s.parked.leases + 1)) (parkings id s.log)]) :
      .ended other (some n) result ∈ s.log :=
    (ended_mem_cons (by simp) h).resolve_right (by simp)
  have hold {other : String} {n k : Nat} (h : .opened other (some n) k ∈ s.log) :
      n ≤ s.parked.leases := by
    obtain ⟨⟨m, hm, hle⟩, -⟩ := hx.opened h
    cases hm
    exact hle
  have hactive {n : Nat} (hle : n ≤ s.parked.leases)
      (h : (({ s with parked := ⟨Keyed.put s.parked.entries id
        { e with lease := some (s.parked.leases + 1) }, s.parked.leases + 1⟩ }.hold
        ⟨e.run, some (s.parked.leases + 1), none⟩).keep
        [.opened id (some (s.parked.leases + 1)) (parkings id s.log)]).Active n) :
      s.Active n := by
    obtain ⟨k, x, hk, hn, hl⟩ | ⟨id', result, hmem, hc⟩ := h
    · obtain ⟨-, rfl⟩ | hk := hands_hold hk
      · cases hl
        exact absurd hle (Nat.not_succ_le_self _)
      · exact .inl ⟨k, x, hk, hn, hl⟩
    · exact .inr ⟨id', result, hended hmem, hc⟩
  exact {
    opened := by
      intro other lease k hmem
      rw [keep_log, hold_log, hcount]
      obtain hmem | ⟨rfl, rfl, rfl⟩ := hopened hmem
      · obtain ⟨⟨n, rfl, hle⟩, hk, y, hy, hp⟩ := hx.opened hmem
        exact ⟨⟨n, rfl, Nat.le_succ_of_le hle⟩, hk, y, List.mem_append_left _ hy, hp⟩
      · obtain ⟨y, hy, hp⟩ := ((hr.waits other).mp (by rw [he]; rfl)).exists_parks
        exact ⟨⟨_, rfl, Nat.le_refl _⟩, Nat.le_refl _, y, List.mem_append_left _ hy, hp⟩
    given := fun hmem => Nat.le_succ_of_le (hx.given (hended hmem))
    ended_id := by
      intro other other' n k result ho hmem
      replace hmem := hended hmem
      obtain ho | ⟨rfl, hn, rfl⟩ := hopened ho
      · exact hx.ended_id ho hmem
      · cases hn
        exact absurd (hx.given hmem) (Nat.not_succ_le_self _)
    hand_id := by
      intro other n k h x ho hk hl
      obtain ⟨-, rfl⟩ | hk := hands_hold hk
      · cases hl
        obtain ho | ⟨rfl, -, -⟩ := hopened ho
        · exact absurd (hold ho) (Nat.not_succ_le_self _)
        · exact hrun
      · obtain ho | ⟨-, hn, -⟩ := hopened ho
        · exact hx.hand_id ho hk hl
        · cases hn
          exact absurd (hs.given hk hl) (Nat.not_succ_le_self _)
    live := by
      intro other n h x result hk hn hl hmem
      replace hmem := hended hmem
      obtain ⟨-, rfl⟩ | hk := hands_hold hk
      · cases hl
        exact absurd (hx.given hmem) (Nat.not_succ_le_self _)
      · exact hx.live hk hn hl hmem
    once := by
      have hat {i : Nat} {other : String} {n : Nat} {result : Except RunError Ending}
          (h : (s.log ++ [.opened id (some (s.parked.leases + 1)) (parkings id s.log)])[i]? =
            some (.ended other (some n) result)) :
          s.log[i]? = some (.ended other (some n) result) :=
        (ended_at_cons (by simp) h).resolve_right (by simp)
      intro i j other other' n r r' hi hj
      exact hx.once (hat hi) (hat hj)
    spent := by
      intro other other' n k result ho hmem hc
      replace hmem := hended hmem
      obtain ho | ⟨rfl, hn, rfl⟩ := hopened ho
      · rw [keep_log, hold_log, hcount]
        obtain hnone | hlt := hx.spent ho hmem hc
        · refine .inl ?_
          have hne : other ≠ id := by
            rintro rfl
            rw [he] at hnone
            cases hnone
          simp only [keep_parked, hold_parked, ParkedRuns.get?, Keyed.get?_put, if_neg hne]
          exact hnone
        · exact .inr hlt
      · cases hn
        exact absurd (hx.given hmem) (Nat.not_succ_le_self _)
    -- If an attempt from this parking were still active, the entry would not be free.
    apart := by
      intro other n m k hon hom hn hm
      obtain ho | ⟨rfl, hnew, rfl⟩ := hopened hon
      · obtain ho' | ⟨rfl, -, rfl⟩ := hopened hom
        · exact hx.apart ho ho' (hactive (hold ho) hn) (hactive (hold ho') hm)
        · exact absurd (hactive (hold ho) hn) (hx.not_active hs he hfree ho)
      · obtain ho' | ⟨-, hnew', -⟩ := hopened hom
        · exact absurd (hactive (hold ho') hm) (hx.not_active hs he hfree ho')
        · cases hnew
          cases hnew'
          rfl }

theorem Sound.filed (hs : s.Sound) {h : Nat} {a : Attempt} {result : Except RunError Ending}
    {run : Run} {now : Instant} {parked : ParkedRuns} {events : List Event} {n : Nat}
    (hxs : s.hands h = some ⟨a, .ended result run⟩) (hl : a.lease = some n)
    (hf : a.Filed result run now s.parked parked events) :
    parked.leases = s.parked.leases ∧
      (∃ extra, events = .ended a.run.id (some n) result :: extra ∧
        ∀ y ∈ extra, ∃ r, y = .parked r) ∧
      (∀ id, s.parked.get? id = none → parked.get? id = none) ∧
      (wasCancelled result = false →
        parked.get? a.run.id = none ∨ 0 < parkings a.run.id events) := by
  obtain ⟨hid, -⟩ := hs.live hxs (by simp)
  cases hf with
  | parked hr held =>
    obtain ⟨e, he, -⟩ := s.parked.heldBy_iff.mp (held n hl)
    refine ⟨by simp, ⟨_, by rw [hl], by simp⟩, fun id hnone => ?_, fun _ => .inr ?_⟩
    · have hne : id ≠ run.id := by
        rintro rfl
        rw [he] at hnone
        cases hnone
      rw [ParkedRuns.get?_park, if_neg hne, hnone]
    · exact List.countP_pos_iff.mpr ⟨.parked run, by simp, by simp [Event.parks, hid]⟩
  | lost hr hl' held =>
    refine ⟨rfl, ⟨[], by rw [hl], by simp⟩, fun _ hnone => hnone, fun _ => .inl ?_⟩
    by_contra hsome
    obtain ⟨e, he⟩ := Option.ne_none_iff_exists'.mp hsome
    have hel := (hs.holds hxs (by simp) he).1.trans hl'
    rw [hid, s.parked.heldBy_iff.mpr ⟨e, he, hel⟩] at held
    cases held
  | finished hr =>
    refine ⟨rfl, ⟨[], by rw [hl], by simp⟩, fun id hnone => ?_, fun _ => .inl ?_⟩
    · rw [ParkedRuns.get?_remove]
      split
      · rfl
      · exact hnone
    · rw [ParkedRuns.get?_remove, if_pos rfl]
  | cancelled hr =>
    subst hr
    exact ⟨rfl, ⟨[], by rw [hl], by simp⟩, fun _ hnone => hnone, fun hc => by cases hc⟩

theorem Exclusive.settled_leased (hx : s.Exclusive) (hs : s.Sound) {h : Nat} {a : Attempt}
    {result : Except RunError Ending} {run : Run} {now : Instant} {parked : ParkedRuns}
    {events : List Event} {n : Nat} (hxs : s.hands h = some ⟨a, .ended result run⟩)
    (hl : a.lease = some n) (hf : a.Filed result run now s.parked parked events) :
    (({ s with parked := parked }.put h (some ⟨a, .settled⟩)).keep events).Exclusive := by
  obtain ⟨hleases, ⟨extra, rfl, hextra⟩, hgone, hspent⟩ := hs.filed hxs hl hf
  have hapart : ∀ y ∈ extra, y.Apart := by
    intro y hy
    obtain ⟨r, rfl⟩ := hextra y hy
    trivial
  -- The lease is active before the step too, so the step adds no active lease.
  have hlive : s.Active n := .inl ⟨h, _, hxs, by simp, hl⟩
  have hnot {id : String} {r : Except RunError Ending} : .ended id (some n) r ∉ s.log :=
    hx.live hxs (by simp) hl
  have hk (k : Nat) (y : Hand) (hy : Function.update s.hands h (some ⟨a, .settled⟩) k = some y) :
      ∃ z, s.hands k = some z ∧ y.Stems z :=
    stems_put hxs (by rintro z ⟨⟩; exact ⟨rfl, rfl, by simp⟩) hy
  have hopened {id : String} {lease : Option Nat} {k : Nat}
      (hm : .opened id lease k ∈ s.log ++ .ended a.run.id (some n) result :: extra) :
      .opened id lease k ∈ s.log :=
    (opened_mem_cons hapart hm).resolve_right (by simp)
  have hended {id : String} {m : Nat} {r : Except RunError Ending}
      (hm : .ended id (some m) r ∈ s.log ++ .ended a.run.id (some n) result :: extra) :
      .ended id (some m) r ∈ s.log ∨ id = a.run.id ∧ m = n ∧ r = result := by
    refine (ended_mem_cons hapart hm).imp_right fun h => ?_
    cases h
    exact ⟨rfl, rfl, rfl⟩
  have hat {i : Nat} {id : String} {m : Nat} {r : Except RunError Ending}
      (hm : (s.log ++ .ended a.run.id (some n) result :: extra)[i]? = some (.ended id (some m) r)) :
      s.log[i]? = some (.ended id (some m) r) ∨ i = s.log.length ∧ m = n := by
    obtain h | ⟨hi, h⟩ := ended_at_cons hapart hm
    · exact .inl h
    · cases h
      exact .inr ⟨hi, rfl⟩
  have hactive {m : Nat} (hm : (({ s with parked := parked }.put h (some ⟨a, .settled⟩)).keep
      (.ended a.run.id (some n) result :: extra)).Active m) : s.Active m := by
    obtain ⟨k, y, hy, hn, hyl⟩ | ⟨id, r, hmem, hc⟩ := hm
    · obtain ⟨z, hz, hst⟩ := hk k y hy
      exact .inl ⟨k, z, hz, (hst.live hn).1, hst.lease ▸ hyl⟩
    · obtain hmem | ⟨rfl, rfl, rfl⟩ := hended hmem
      · exact .inr ⟨id, r, hmem, hc⟩
      · exact hlive
  exact {
    opened := by
      intro id lease k ho
      obtain ⟨⟨m, rfl, hle⟩, hcount, y, hy, hp⟩ := hx.opened (hopened ho)
      rw [keep_log, put_log, parkings_append]
      exact ⟨⟨m, rfl, hleases ▸ hle⟩, Nat.le_add_right_of_le hcount, y,
        List.mem_append_left _ hy, hp⟩
    given := by
      intro id m r hmem
      rw [keep_parked, put_parked, hleases]
      obtain hmem | ⟨-, rfl, -⟩ := hended hmem
      · exact hx.given hmem
      · exact hs.given hxs hl
    ended_id := by
      intro id id' m k r ho hmem
      obtain hmem | ⟨rfl, rfl, -⟩ := hended hmem
      · exact hx.ended_id (hopened ho) hmem
      · exact hx.hand_id (hopened ho) hxs hl
    hand_id := by
      intro id m k k' y ho hy hyl
      obtain ⟨z, hz, hst⟩ := hk k' y hy
      exact hst.id.trans (hx.hand_id (hopened ho) hz (hst.lease ▸ hyl))
    live := by
      intro id m k y r hy hn hyl hmem
      obtain ⟨z, hz, hst⟩ := hk k y hy
      obtain hmem | ⟨-, rfl, -⟩ := hended hmem
      · exact hx.live hz (hst.live hn).1 (hst.lease ▸ hyl) hmem
      · obtain rfl := hs.single hz hxs (hst.lease ▸ hyl) hl
        rw [keep_hands, put_hands, Function.update_self] at hy
        cases hy
        exact hn rfl
    once := by
      intro i j id id' m r r' hi hj
      obtain hi' | ⟨rfl, rfl⟩ := hat hi
      · obtain hj' | ⟨rfl, rfl⟩ := hat hj
        · exact hx.once hi' hj'
        · exact absurd (List.mem_of_getElem? hi') hnot
      · obtain hj' | ⟨rfl, -⟩ := hat hj
        · exact absurd (List.mem_of_getElem? hj') hnot
        · rfl
    spent := by
      intro id id' m k r ho hmem hc
      replace ho := hopened ho
      obtain hmem | ⟨rfl, rfl, rfl⟩ := hended hmem
      · rw [keep_log, put_log, parkings_append]
        obtain hnone | hlt := hx.spent ho hmem hc
        · exact .inl (hgone id hnone)
        · exact .inr (Nat.lt_add_right _ hlt)
      · obtain rfl := hx.hand_id ho hxs hl
        rw [keep_log, put_log, parkings_append]
        obtain hnone | hpos := hspent hc
        · exact .inl hnone
        · have hle := (hx.opened ho).2.1
          exact .inr (Nat.lt_of_le_of_lt hle (Nat.lt_add_of_pos_right hpos))
    apart := fun ho ho' hn hm => hx.apart (hopened ho) (hopened ho') (hactive hn) (hactive hm) }

theorem Exclusive.settled_new (hx : s.Exclusive) (hs : s.Sound) (hr : s.Recorded) {h : Nat}
    {a : Attempt} {result : Except RunError Ending} {run : Run} {now : Instant}
    {parked : ParkedRuns} {events : List Event} (hxs : s.hands h = some ⟨a, .ended result run⟩)
    (hl : a.lease = none) (hf : a.Filed result run now s.parked parked events) :
    (({ s with parked := parked }.put h (some ⟨a, .settled⟩)).keep events).Exclusive := by
  obtain ⟨hid, -⟩ := hs.live hxs (by simp)
  have hk (k : Nat) (y : Hand) (hy : Function.update s.hands h (some ⟨a, .settled⟩) k = some y) :
      (∃ z, s.hands k = some z ∧ y.Stems z) ∨ y.attempt.lease = none :=
    .inl (stems_put hxs (by rintro z ⟨⟩; exact ⟨rfl, rfl, by simp⟩) hy)
  cases hf with
  | parked hr' held =>
    refine hx.quiet (s := s) rfl (by simp [Event.Apart, hl]) (by simp) hk fun id hnone hp => ?_
    -- A new run has not been parked before, so no entry comes back.
    have hne : id ≠ run.id := by
      rintro rfl
      obtain ⟨y, hy, hyp⟩ := hp
      rw [hid, hr.unparked hxs (by simp) hl y hy] at hyp
      cases hyp
    rw [keep_parked, put_parked, ParkedRuns.get?_park, if_neg hne, hnone]
  | lost hr' hl' held =>
    rw [hl] at hl'
    cases hl'
  | finished hr' =>
    refine hx.quiet (s := s) rfl (by simp [Event.Apart, hl]) rfl hk fun id hnone _ => ?_
    rw [keep_parked, put_parked, ParkedRuns.get?_remove]
    split
    · rfl
    · exact hnone
  | cancelled hr' =>
    exact hx.quiet (s := s) rfl (by simp [Event.Apart, hl]) rfl hk fun _ hnone _ => hnone

theorem Exclusive.change {eng : Engine σ} (hx : s.Exclusive) (hs : s.Sound) (hr : s.Recorded)
    (hc : Change eng s s') : s'.Exclusive := by
  cases hc with
  | outer c w =>
    exact hx.quiet (s := s) (List.append_nil _).symm (by simp) rfl
      (fun _ x hxs => .inl ⟨x, hxs, .refl x⟩) fun _ hnone _ => hnone
  | begun hid pipe =>
    refine hx.quiet (s := s) (List.append_nil _).symm (by simp) rfl (fun k x hxs => ?_)
      fun _ hnone _ => hnone
    obtain ⟨-, rfl⟩ | hxs := hands_hold hxs
    · exact .inr rfl
    · exact .inl ⟨x, hxs, .refl x⟩
  | opened ht => exact hx.opened_step hs hr ht
  | onward hxs hxx w =>
    exact hx.quiet (s := s) (List.append_nil _).symm (by simp) rfl
      (fun _ _ hy => .inl (stems_put hxs (by rintro z ⟨⟩; exact hxx.stems) hy))
      fun _ hnone _ => hnone
  | @refused h a hxs hp =>
    have hl := hs.lease_of_refused hxs hp
    refine hx.quiet (s := s) rfl (by simp [Event.Apart, hl]) (by simp)
      (fun _ _ hy => .inl (stems_put hxs (by simp) hy)) fun id hnone _ => ?_
    rw [keep_parked, put_parked, Attempt.get?_abandon, hnone, Option.map_none]
  | @settled h a result run now parked events hxs hf =>
    cases hl : a.lease with
    | none => exact hx.settled_new hs hr hxs hl hf
    | some n => exact hx.settled_leased hs hxs hl hf
  | dropped hxs =>
    refine hx.quiet (s := s) (List.append_nil _).symm (by simp) (by simp)
      (fun _ _ hy => .inl (stems_put hxs (by simp) hy)) fun id hnone _ => ?_
    rw [put_parked, Attempt.get?_abandon, hnone, Option.map_none]
  | closed id =>
    refine hx.quiet (s := s) rfl (by simp [Event.Apart]) rfl (fun _ x hxs => .inl ⟨x, hxs, .refl x⟩)
      fun other hnone _ => ?_
    rw [keep_parked, ParkedRuns.get?_remove]
    split
    · rfl
    · exact hnone
  | pruned now maxAge =>
    refine hx.quiet (s := s) rfl ?_ rfl (fun _ x hxs => .inl ⟨x, hxs, .refl x⟩) fun id hnone _ => ?_
    · intro y hy
      obtain ⟨other, -, rfl⟩ := List.mem_map.mp hy
      trivial
    · rw [keep_parked, ParkedRuns.get?_prune hs.distinct, hnone]
      rfl

theorem exclusive_init (w : σ) : (init w).Exclusive where
  opened h := by cases h
  given h := by cases h
  ended_id h := by cases h
  hand_id h := by cases h
  live h := by cases h
  once h := by cases h
  spent h := by cases h
  apart h := by cases h

theorem exclusive_play (eng : Engine σ) (w : σ) (acts : List (Action σ)) :
    (eng.play (init w) acts).Exclusive :=
  (eng.play_induction (P := fun s => s.Sound ∧ s.Recorded ∧ s.Exclusive)
    (fun _ _ hc h => ⟨h.1.change hc, h.2.1.change h.1 hc, h.2.2.change h.1 h.2.1 hc⟩)
    ⟨sound_init w, recorded_init w, exclusive_init w⟩ acts).2.2

def Holds (s : System σ) (h : Nat) (id : String) : Prop :=
  ∃ x lease, s.hands h = some x ∧ x.attempt.run.id = id ∧ x.attempt.lease = some lease ∧
    s.parked.heldBy id lease = true

def Lost (s : System σ) (h : Nat) (id : String) (lease : Nat) : Prop :=
  ∃ x, s.hands h = some x ∧ x.attempt.run.id = id ∧ x.attempt.lease = some lease ∧
    s.parked.heldBy id lease = false

/-- At this place of the log an attempt that was opened from the `k`th parking of the run comes to
an end that is no cancellation. -/
def Resumed (s : System σ) (id : String) (k i : Nat) : Prop :=
  ∃ lease other result, .opened id (some lease) k ∈ s.log ∧
    s.log[i]? = some (.ended other (some lease) result) ∧ wasCancelled result = false

theorem Exclusive.resumed_unique (hx : s.Exclusive) {id : String} {k i j : Nat}
    (hi : s.Resumed id k i) (hj : s.Resumed id k j) : i = j := by
  obtain ⟨n, id₁, r₁, hn, hi, hc₁⟩ := hi
  obtain ⟨m, id₂, r₂, hm, hj, hc₂⟩ := hj
  obtain rfl := hx.apart hn hm (.inr ⟨id₁, r₁, List.mem_of_getElem? hi, hc₁⟩)
    (.inr ⟨id₂, r₂, List.mem_of_getElem? hj, hc₂⟩)
  exact hx.once hi hj

theorem Sound.holds_unique (hs : s.Sound) {h h' : Nat} {id : String} (hh : s.Holds h id)
    (hh' : s.Holds h' id) : h = h' := by
  obtain ⟨x, lease, hx, -, hl, hheld⟩ := hh
  obtain ⟨x', lease', hx', -, hl', hheld'⟩ := hh'
  obtain ⟨e, he, hel⟩ := s.parked.heldBy_iff.mp hheld
  obtain ⟨e', he', hel'⟩ := s.parked.heldBy_iff.mp hheld'
  rw [he] at he'
  cases he'
  rw [hel] at hel'
  cases hel'
  exact hs.single hx hx' hl hl'

theorem takeUp_of_holds {h : Nat} {id : String} (hh : s.Holds h id) :
    Attempt.takeUp s.parked id = .error (.resumeInUse id) := by
  obtain ⟨x, lease, -, -, -, hheld⟩ := hh
  obtain ⟨e, he, hel⟩ := s.parked.heldBy_iff.mp hheld
  simp only [Attempt.takeUp, s.parked.checkout_of_leased he (by rw [hel]; rfl)]

theorem Sound.file_of_lost (hs : s.Sound) {h : Nat} {a : Attempt}
    {result : Except RunError Ending} {run : Run} {lease : Nat}
    (hx : s.hands h = some ⟨a, .ended result run⟩) (hl : a.lease = some lease)
    (hlost : s.parked.heldBy a.run.id lease = false) (now : Instant) :
    a.file result run now s.parked = s.parked := by
  obtain ⟨hid, -⟩ := hs.live hx (by simp)
  have hgone : s.parked.get? a.run.id = none := by
    by_contra hsome
    obtain ⟨e, he⟩ := Option.ne_none_iff_exists'.mp hsome
    rw [s.parked.heldBy_iff.mpr ⟨e, he, (hs.holds hx (by simp) he).1.trans hl⟩] at hlost
    cases hlost
  have hf := a.filed result run now s.parked
  generalize a.file result run now s.parked = parked at hf ⊢
  generalize a.report result run s.parked = events at hf
  cases hf with
  | parked hr held =>
    rw [show run.id = a.run.id from hid] at held
    rw [held lease hl] at hlost
    cases hlost
  | lost => rfl
  | finished => exact s.parked.remove_of_get?_none hgone
  | cancelled => rfl

end System

/-- Whatever the clients do: only one of them has an entry on lease, and nobody else can take it up;
a lease that is lost changes nothing; and of all attempts opened from one parking at most one comes
to an end that is no cancellation. -/
theorem Engine.resumed_once (eng : Engine σ) (w : σ) (acts : List (Action σ)) :
    let s := eng.play (.init w) acts
    (∀ h id, s.Holds h id → (∀ h', s.Holds h' id → h' = h) ∧
      Attempt.takeUp s.parked id = .error (.resumeInUse id) ∧ eng.step s (.takeUp id) = s) ∧
    (∀ h id lease, s.Lost h id lease →
      (eng.step s (.drop h)).parked = s.parked ∧ (eng.step s (.settle h)).parked = s.parked ∧
      s.parked.release id lease = s.parked ∧
      ∀ run now, run.id = id → s.parked.park run (some lease) now = s.parked) ∧
    ∀ id k i j, s.Resumed id k i → s.Resumed id k j → i = j := by
  intro s
  have hs : s.Sound := System.sound_play eng w acts
  have hx : s.Exclusive := System.exclusive_play eng w acts
  refine ⟨fun h id hh => ?_, fun h id lease hlost => ?_, fun id k i j => hx.resumed_unique⟩
  · have ht := System.takeUp_of_holds hh
    refine ⟨fun h' hh' => hs.holds_unique hh' hh, ht, ?_⟩
    simp only [step, ht]
  · obtain ⟨x, hxs, rfl, hl, hheld⟩ := hlost
    have hrelease := s.parked.release_of_not_held hheld
    refine ⟨?_, ?_, hrelease, fun run now hid => ?_⟩
    · simp only [step, hxs, System.put_parked, Attempt.abandon, hl, hrelease]
    · simp only [step, hxs]
      split
      next a result run he =>
        cases he
        exact hs.file_of_lost hxs hl hheld _
      · rfl
    · exact s.parked.park_of_not_held (hid ▸ hheld) now

end Pipework
