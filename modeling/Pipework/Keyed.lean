/-! Key and value pairs that keep the order in which their keys first came. Putting a value under a
key that is already there leaves the key at its place, so a keyed list read from a text has the
order of that text. -/

namespace Pipework

abbrev Keyed (α : Type) := List (String × α)

namespace Keyed

variable {α : Type}

def get? : Keyed α → String → Option α
  | [], _ => none
  | (k, v) :: m, key => if k = key then some v else get? m key

def put : Keyed α → String → α → Keyed α
  | [], key, a => [(key, a)]
  | (k, v) :: m, key, a => if k = key then (k, a) :: m else (k, v) :: put m key a

def erase (m : Keyed α) (key : String) : Keyed α := m.filter fun p => p.1 ≠ key

def keys (m : Keyed α) : List String := m.map Prod.fst

def has (m : Keyed α) (key : String) : Bool := (get? m key).isSome

def ofPairs (pairs : List (String × α)) : Keyed α :=
  pairs.foldl (fun m p => put m p.1 p.2) []

@[simp] theorem get?_nil (key : String) : get? ([] : Keyed α) key = none := rfl

@[simp] theorem get?_put_self (m : Keyed α) (key : String) (a : α) :
    get? (put m key a) key = some a := by
  induction m with
  | nil => simp [put, get?]
  | cons p m ih =>
    obtain ⟨k, v⟩ := p
    by_cases h : k = key <;> simp [put, get?, h, ih]

theorem get?_put_of_ne (m : Keyed α) {key other : String} (h : other ≠ key) (a : α) :
    get? (put m key a) other = get? m other := by
  induction m with
  | nil => simp [put, get?, h.symm]
  | cons p m ih =>
    obtain ⟨k, v⟩ := p
    by_cases hk : k = key
    · subst hk; simp [put, get?, h.symm]
    · by_cases ho : k = other
      · subst ho; simp [put, get?, h]
      · simp [put, get?, hk, ho, ih]

theorem put_of_get? {m : Keyed α} {key : String} {a : α} (h : get? m key = some a) :
    put m key a = m := by
  induction m with
  | nil => cases h
  | cons p m ih =>
    obtain ⟨k, v⟩ := p
    by_cases hk : k = key
    · have hv : v = a := by simpa [get?, hk] using h
      simp [put, hk, hv]
    · have hm : get? m key = some a := by simpa [get?, hk] using h
      simp [put, hk, ih hm]

theorem put_put (m : Keyed α) (key : String) (a b : α) :
    put (put m key a) key b = put m key b := by
  induction m with
  | nil => simp [put]
  | cons p m ih =>
    obtain ⟨k, v⟩ := p
    by_cases hk : k = key <;> simp [put, hk, ih]

theorem get?_put (m : Keyed α) (key other : String) (a : α) :
    get? (put m key a) other = if other = key then some a else get? m other := by
  split
  next h => rw [h, get?_put_self]
  next h => exact get?_put_of_ne m h a

@[simp] theorem get?_erase_self (m : Keyed α) (key : String) : get? (erase m key) key = none := by
  induction m with
  | nil => rfl
  | cons p m ih =>
    obtain ⟨k, v⟩ := p
    by_cases h : k = key
    · simpa [erase, h] using ih
    · simpa [erase, get?, h] using ih

theorem get?_erase_of_ne (m : Keyed α) {key other : String} (h : other ≠ key) :
    get? (erase m key) other = get? m other := by
  induction m with
  | nil => rfl
  | cons p m ih =>
    obtain ⟨k, v⟩ := p
    by_cases hk : k = key
    · subst hk; simpa [erase, get?, h.symm] using ih
    · by_cases ho : k = other
      · subst ho; simp [erase, get?, h]
      · simpa [erase, get?, hk, ho] using ih

theorem get?_eq_none_iff {m : Keyed α} {key : String} : get? m key = none ↔ key ∉ keys m := by
  induction m with
  | nil => simp [keys]
  | cons p m ih =>
    obtain ⟨k, v⟩ := p
    by_cases h : k = key
    · simp [get?, keys, h]
    · simp only [get?, h, if_false, ih]
      simp [keys, Ne.symm h]

theorem erase_of_get?_none {m : Keyed α} {key : String} (h : get? m key = none) :
    erase m key = m := by
  refine List.filter_eq_self.mpr fun p hp => ?_
  have hne : p.1 ≠ key := fun he =>
    get?_eq_none_iff.mp h (he ▸ List.mem_map_of_mem hp)
  simpa using hne

theorem mem_keys_put {m : Keyed α} {key other : String} {a : α} (h : other ∈ keys (put m key a)) :
    other = key ∨ other ∈ keys m := by
  by_cases hk : other = key
  · exact .inl hk
  · refine .inr (Classical.byContradiction fun hm => ?_)
    rw [← get?_eq_none_iff, ← get?_put_of_ne m hk a, get?_eq_none_iff] at hm
    exact hm h

theorem nodup_put {m : Keyed α} (h : (keys m).Nodup) (key : String) (a : α) :
    (keys (put m key a)).Nodup := by
  induction m with
  | nil => simp [put, keys]
  | cons p m ih =>
    obtain ⟨k, v⟩ := p
    obtain ⟨hk, hm⟩ := List.nodup_cons.mp h
    by_cases hkey : k = key
    · rw [put, if_pos hkey]
      exact h
    · rw [put, if_neg hkey]
      refine List.nodup_cons.mpr ⟨fun hmem => ?_, ih hm⟩
      exact (mem_keys_put hmem).elim hkey hk

theorem nodup_filter {m : Keyed α} (h : (keys m).Nodup) (f : String × α → Bool) :
    (keys (m.filter f)).Nodup :=
  h.sublist (List.filter_sublist.map Prod.fst)

theorem get?_filter {m : Keyed α} (h : (keys m).Nodup) (f : String × α → Bool) (key : String) :
    get? (m.filter f) key = (get? m key).filter fun a => f (key, a) := by
  induction m with
  | nil => rfl
  | cons p m ih =>
    obtain ⟨k, v⟩ := p
    obtain ⟨hk, hm⟩ := List.nodup_cons.mp h
    by_cases hkey : k = key
    · subst hkey
      have hnone : get? m k = none := get?_eq_none_iff.mpr hk
      cases hf : f (k, v) with
      | true => simp [get?, List.filter, Option.filter, hf]
      | false => simp [get?, List.filter, Option.filter, hf, ih hm, hnone]
    · cases hf : f (k, v) <;> simp [get?, List.filter, hf, hkey, ih hm]

end Keyed

end Pipework
