import Pipework.Run.Error
import Pipework.Run.Frame

/-! Paused runs that wait to be taken up. Taking one up leases its entry: the entry stays as it is
while a copy of the run goes on, and nobody else can take it up until the lease ends. -/

namespace Pipework

structure Entry where
  run : Run
  lease : Option Nat
  since : Instant
  deriving Repr

structure ParkedRuns where
  entries : Keyed Entry
  leases : Nat
  deriving Repr

namespace ParkedRuns

def empty : ParkedRuns := ⟨[], 0⟩

def get? (s : ParkedRuns) (id : String) : Option Entry := Keyed.get? s.entries id

def size (s : ParkedRuns) : Nat := s.entries.length

def heldBy (s : ParkedRuns) (id : String) (lease : Nat) : Bool :=
  match s.get? id with
  | some e => e.lease == some lease
  | none => false

/-- Stores a paused run, free to be taken up. Under a lease it is stored only while the lease holds
the entry, so an entry that has been removed does not come back. -/
def park (s : ParkedRuns) (run : Run) (lease : Option Nat) (now : Instant) : ParkedRuns :=
  let stored := { s with entries := Keyed.put s.entries run.id ⟨run, none, now⟩ }
  match lease with
  | none => stored
  | some lease => if s.heldBy run.id lease then stored else s

def checkout (s : ParkedRuns) (id : String) : Except RunError ((Run × Nat) × ParkedRuns) :=
  match s.get? id with
  | none => .error (.resumeNotFound id)
  | some ⟨_, some _, _⟩ => .error (.resumeInUse id)
  | some ⟨run, none, since⟩ =>
    let lease := s.leases + 1
    .ok ((run, lease), ⟨Keyed.put s.entries id ⟨run, some lease, since⟩, lease⟩)

def release (s : ParkedRuns) (id : String) (lease : Nat) : ParkedRuns :=
  match s.get? id with
  | some ⟨run, some held, since⟩ =>
    if held = lease then { s with entries := Keyed.put s.entries id ⟨run, none, since⟩ } else s
  | _ => s

def remove (s : ParkedRuns) (id : String) : ParkedRuns :=
  { s with entries := Keyed.erase s.entries id }

/-- Whether an entry is free and has waited for at least the given nanoseconds. -/
def isStale (now : Instant) (maxAge : Int) (e : Entry) : Bool :=
  e.lease.isNone && e.since.toNanos ≤ now.toNanos - maxAge

def prune (s : ParkedRuns) (now : Instant) (maxAge : Int) : ParkedRuns :=
  { s with entries := s.entries.filter fun p => !isStale now maxAge p.2 }

def pruned (s : ParkedRuns) (now : Instant) (maxAge : Int) : Nat :=
  s.entries.countP fun p => isStale now maxAge p.2

variable (s : ParkedRuns)

theorem heldBy_iff {id : String} {lease : Nat} :
    s.heldBy id lease = true ↔ ∃ e, s.get? id = some e ∧ e.lease = some lease := by
  unfold heldBy
  split
  next e he => simp [he]
  next hn => simp [hn]

theorem get?_park_self (run : Run) (now : Instant) :
    (s.park run none now).get? run.id = some ⟨run, none, now⟩ :=
  Keyed.get?_put_self ..

theorem park_of_not_held {run : Run} {lease : Nat} (h : s.heldBy run.id lease = false)
    (now : Instant) : s.park run (some lease) now = s := by
  simp [park, h]

theorem park_of_held {run : Run} {lease : Nat} (h : s.heldBy run.id lease = true)
    (now : Instant) : s.park run (some lease) now = s.park run none now := by
  simp [park, h]

theorem release_of_not_held {id : String} {lease : Nat} (h : s.heldBy id lease = false) :
    s.release id lease = s := by
  unfold release
  split
  next held _ he =>
    have hne : held ≠ lease := by
      rintro rfl
      rw [(s.heldBy_iff).mpr ⟨_, he, rfl⟩] at h
      cases h
    rw [if_neg hne]
  · rfl

theorem release_of_held {id : String} {e : Entry} {lease : Nat} (he : s.get? id = some e)
    (hl : e.lease = some lease) :
    s.release id lease = { s with entries := Keyed.put s.entries id { e with lease := none } } := by
  obtain ⟨run, held, since⟩ := e
  subst hl
  simp [release, he]

theorem get?_release (id other : String) (lease : Nat) :
    (s.release id lease).get? other = (s.get? other).map fun e =>
      if other = id ∧ e.lease = some lease then { e with lease := none } else e := by
  cases hh : s.heldBy id lease with
  | false =>
    rw [s.release_of_not_held hh]
    cases he : s.get? other with
    | none => rfl
    | some e =>
      have hne : ¬ (other = id ∧ e.lease = some lease) := by
        rintro ⟨rfl, hl⟩
        rw [s.heldBy_iff.mpr ⟨e, he, hl⟩] at hh
        cases hh
      simp [hne]
  | true =>
    obtain ⟨e, he, hl⟩ := s.heldBy_iff.mp hh
    rw [s.release_of_held he hl, get?, Keyed.get?_put]
    split
    next h =>
      subst h
      simp [he, hl]
    next h =>
      rw [show Keyed.get? s.entries other = s.get? other from rfl]
      cases s.get? other <;> simp [h]

theorem get?_park (run : Run) (now : Instant) (other : String) :
    (s.park run none now).get? other =
      if other = run.id then some ⟨run, none, now⟩ else s.get? other :=
  Keyed.get?_put ..

@[simp] theorem leases_park (run : Run) (lease : Option Nat) (now : Instant) :
    (s.park run lease now).leases = s.leases := by
  unfold park
  split
  · rfl
  · split <;> rfl

@[simp] theorem leases_release (id : String) (lease : Nat) :
    (s.release id lease).leases = s.leases := by
  unfold release
  split
  · split <;> rfl
  · rfl

theorem checkout_of_leased {id : String} {e : Entry} (he : s.get? id = some e)
    (hl : e.lease.isSome = true) : s.checkout id = .error (.resumeInUse id) := by
  obtain ⟨run, held, since⟩ := e
  obtain ⟨lease, rfl⟩ := Option.isSome_iff_exists.mp hl
  simp [checkout, he]

theorem checkout_of_free {id : String} {e : Entry} (he : s.get? id = some e)
    (hl : e.lease = none) :
    s.checkout id = .ok ((e.run, s.leases + 1),
      ⟨Keyed.put s.entries id { e with lease := some (s.leases + 1) }, s.leases + 1⟩) := by
  obtain ⟨run, held, since⟩ := e
  subst hl
  simp [checkout, he]

theorem checkout_ok {id : String} {run : Run} {lease : Nat} {s' : ParkedRuns}
    (h : s.checkout id = .ok ((run, lease), s')) :
    ∃ since, s.get? id = some ⟨run, none, since⟩ ∧ lease = s.leases + 1 ∧
      s' = ⟨Keyed.put s.entries id ⟨run, some lease, since⟩, lease⟩ := by
  unfold checkout at h
  split at h
  · cases h
  · cases h
  next since he =>
    cases h
    exact ⟨since, he, rfl, rfl⟩

/-- Ending a lease that has just been given out leaves all entries as they were. -/
theorem entries_release_of_checkout {id : String} {run : Run} {lease : Nat} {s' : ParkedRuns}
    (h : s.checkout id = .ok ((run, lease), s')) : (s'.release id lease).entries = s.entries := by
  obtain ⟨since, he, rfl, rfl⟩ := s.checkout_ok h
  have hput : ParkedRuns.get? ⟨Keyed.put s.entries id ⟨run, some (s.leases + 1), since⟩,
      s.leases + 1⟩ id = some ⟨run, some (s.leases + 1), since⟩ := Keyed.get?_put_self ..
  rw [release_of_held _ hput rfl]
  dsimp only
  rw [Keyed.put_put]
  exact Keyed.put_of_get? he

def Distinct (s : ParkedRuns) : Prop := (Keyed.keys s.entries).Nodup

theorem Distinct.park {s : ParkedRuns} (h : s.Distinct) (run : Run) (now : Instant) :
    (s.park run none now).Distinct :=
  Keyed.nodup_put h ..

theorem Distinct.release {s : ParkedRuns} (h : s.Distinct) (id : String) (lease : Nat) :
    (s.release id lease).Distinct := by
  unfold ParkedRuns.release
  split
  · split
    · exact Keyed.nodup_put h ..
    · exact h
  · exact h

theorem Distinct.remove {s : ParkedRuns} (h : s.Distinct) (id : String) : (s.remove id).Distinct :=
  Keyed.nodup_filter h _

theorem Distinct.prune {s : ParkedRuns} (h : s.Distinct) (now : Instant) (maxAge : Int) :
    (s.prune now maxAge).Distinct :=
  Keyed.nodup_filter h _

theorem remove_of_get?_none {id : String} (h : s.get? id = none) : s.remove id = s := by
  have herase : Keyed.erase s.entries id = s.entries := Keyed.erase_of_get?_none h
  simp [remove, herase]

theorem get?_remove (id other : String) :
    (s.remove id).get? other = if other = id then none else s.get? other := by
  split
  next h =>
    subst h
    exact Keyed.get?_erase_self ..
  next h => exact Keyed.get?_erase_of_ne _ h

theorem get?_prune {s : ParkedRuns} (h : s.Distinct) (now : Instant) (maxAge : Int)
    (id : String) :
    (s.prune now maxAge).get? id = (s.get? id).filter fun e => !isStale now maxAge e :=
  Keyed.get?_filter h _ id

end ParkedRuns

end Pipework
