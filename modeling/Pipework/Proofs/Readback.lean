import Mathlib.Data.List.Basic
import Mathlib.Data.List.Nodup
import Pipework.Json.Read

/-!
# Values that are read back

A reader gives back what has been written for it if it is let in as deep as the value nests. This
is shown for texts, free values, lists, fields that may be left out, and for the fields of a record
by their names. A free value comes back if no object in it has a key twice, which is so of every
value that has been read from a document.
-/

namespace Pipework

theorem mapM_map_eq_some {α β : Type} {f : α → β} {read : β → Option α} {xs : List α}
    (h : ∀ x ∈ xs, read (f x) = some x) : (xs.map f).mapM read = some xs := by
  induction xs with
  | nil => rfl
  | cons x xs ih =>
    have hx := h x List.mem_cons_self
    have hxs := ih fun y hy => h y (List.mem_cons_of_mem x hy)
    simp [List.mapM_cons, hx, hxs]

theorem exists_of_mapM_eq_some {α β : Type} {read : α → Option β} {xs : List α} {ys : List β}
    (h : xs.mapM read = some ys) : ∀ y ∈ ys, ∃ x ∈ xs, read x = some y := by
  induction xs generalizing ys with
  | nil =>
    cases h
    intro y hy
    cases hy
  | cons x xs ih =>
    rw [List.mapM_cons] at h
    obtain ⟨first, hfirst, h⟩ := Option.bind_eq_some_iff.mp h
    obtain ⟨rest, hrest, h⟩ := Option.bind_eq_some_iff.mp h
    cases h
    intro y hy
    rcases List.mem_cons.mp hy with rfl | hy
    · exact ⟨x, List.mem_cons_self, hfirst⟩
    · obtain ⟨z, hz, hzy⟩ := ih hrest y hy
      exact ⟨z, List.mem_cons_of_mem x hz, hzy⟩

namespace Keyed

variable {α : Type}

theorem put_of_not_mem {m : Keyed α} {key : String} {a : α} (h : key ∉ keys m) :
    put m key a = m ++ [(key, a)] := by
  induction m with
  | nil => rfl
  | cons p m ih =>
    obtain ⟨k, v⟩ := p
    rw [keys, List.map_cons, List.mem_cons, not_or] at h
    rw [put, if_neg (Ne.symm h.1), ih h.2, List.cons_append]

theorem keys_append (m n : Keyed α) : keys (m ++ n) = keys m ++ keys n := List.map_append

theorem foldl_put {m : Keyed α} {pairs : List (String × α)} (h : (keys (m ++ pairs)).Nodup) :
    pairs.foldl (fun m p => put m p.1 p.2) m = m ++ pairs := by
  induction pairs generalizing m with
  | nil => simp
  | cons p pairs ih =>
    have hp : p.1 ∉ keys m := by
      rw [keys_append] at h
      intro hmem
      exact List.disjoint_of_nodup_append h hmem List.mem_cons_self
    rw [List.foldl_cons, put_of_not_mem hp, ih, List.append_assoc, List.singleton_append]
    rwa [List.append_assoc, List.singleton_append]

theorem ofPairs_of_nodup {pairs : List (String × α)} (h : (keys pairs).Nodup) :
    ofPairs pairs = pairs :=
  foldl_put (by simpa using h)

theorem nodup_foldl_put {m : Keyed α} (h : (keys m).Nodup) (pairs : List (String × α)) :
    (keys (pairs.foldl (fun m p => put m p.1 p.2) m)).Nodup := by
  induction pairs generalizing m with
  | nil => exact h
  | cons p pairs ih => exact ih (nodup_put h p.1 p.2)

theorem mem_put {m : Keyed α} {key : String} {a : α} {p : String × α} (h : p ∈ put m key a) :
    p = (key, a) ∨ p ∈ m := by
  induction m with
  | nil => exact .inl (List.mem_singleton.mp h)
  | cons q m ih =>
    obtain ⟨k, v⟩ := q
    by_cases hk : k = key
    · rw [put, if_pos hk] at h
      rcases List.mem_cons.mp h with rfl | h
      · exact .inl (by rw [hk])
      · exact .inr (List.mem_cons_of_mem _ h)
    · rw [put, if_neg hk] at h
      rcases List.mem_cons.mp h with rfl | h
      · exact .inr List.mem_cons_self
      · exact (ih h).imp_right (List.mem_cons_of_mem _)

theorem mem_of_foldl_put {m : Keyed α} {pairs : List (String × α)} {p : String × α}
    (h : p ∈ pairs.foldl (fun m p => put m p.1 p.2) m) : p ∈ m ∨ p ∈ pairs := by
  induction pairs generalizing m with
  | nil => exact .inl h
  | cons q pairs ih =>
    rcases ih h with h | h
    · rcases mem_put h with rfl | h
      · exact .inr List.mem_cons_self
      · exact .inl h
    · exact .inr (List.mem_cons_of_mem q h)

theorem nodup_ofPairs (pairs : List (String × α)) : (keys (ofPairs pairs)).Nodup :=
  nodup_foldl_put (show (keys ([] : Keyed α)).Nodup from List.nodup_nil) pairs

theorem mem_of_ofPairs {pairs : List (String × α)} {p : String × α} (h : p ∈ ofPairs pairs) :
    p ∈ pairs :=
  (mem_of_foldl_put h).resolve_left List.not_mem_nil

theorem get?_append (m n : Keyed α) (key : String) :
    get? (m ++ n) key = (get? m key).or (get? n key) := by
  induction m with
  | nil => rfl
  | cons p m ih =>
    obtain ⟨k, v⟩ := p
    rw [List.cons_append, get?, get?]
    split
    · rfl
    · exact ih

theorem mem_of_get? {m : Keyed α} {key : String} {a : α} (h : get? m key = some a) :
    (key, a) ∈ m := by
  induction m with
  | nil => cases h
  | cons p m ih =>
    obtain ⟨k, v⟩ := p
    rw [get?] at h
    split at h
    next hk =>
      cases h
      rw [hk]
      exact List.mem_cons_self
    · exact List.mem_cons_of_mem _ (ih h)

end Keyed

inductive Json.Distinct : Json → Prop
  | null : Distinct .null
  | bool (b : Bool) : Distinct (.bool b)
  | int (n : Int) : Distinct (.int n)
  | float (bits : UInt64) : Distinct (.float bits)
  | str (s : String) : Distinct (.str s)
  | arr {items : List Json} : (∀ x ∈ items, Distinct x) → Distinct (.arr items)
  | obj {fields : List (String × Json)} : (Keyed.keys fields).Nodup →
      (∀ p ∈ fields, Distinct p.2) → Distinct (.obj fields)

namespace Doc

inductive IsJson : Doc → Prop
  | null : IsJson .null
  | bool (b : Bool) : IsJson (.bool b)
  | num (n : Decimal.Numeral) : IsJson (.num n)
  | int (n : Int) : IsJson (.known (.int n))
  | float (bits : UInt64) : IsJson (.known (.float bits))
  | str (s : Option String) : IsJson (.str s)
  | arr {items : List Doc} : (∀ d ∈ items, IsJson d) → IsJson (.arr items)
  | obj {fields : List (Option String × Doc)} : (∀ f ∈ fields, IsJson f.2) → IsJson (.obj fields)

theorem ofItems_eq (items : List Json) : ofItems items = items.map ofJson := by
  induction items with
  | nil => rfl
  | cons x items ih => rw [ofItems, ih, List.map_cons]

theorem ofFields_eq (fields : List (String × Json)) :
    ofFields fields = fields.map fun p => (some p.1, ofJson p.2) := by
  induction fields with
  | nil => rfl
  | cons p fields ih => rw [ofFields, ih, List.map_cons]

mutual
theorem isJson_ofJson : ∀ j : Json, (ofJson j).IsJson
  | .null => .null
  | .bool b => .bool b
  | .int n => .int n
  | .float bits => .float bits
  | .str s => .str (some s)
  | .arr items => .arr (isJson_ofItems items)
  | .obj fields => .obj (isJson_ofFields fields)

theorem isJson_ofItems : ∀ items : List Json, ∀ d ∈ ofItems items, d.IsJson
  | [], _, h => nomatch h
  | x :: items, d, h => by
    rcases List.mem_cons.mp h with rfl | h
    · exact isJson_ofJson x
    · exact isJson_ofItems items d h

theorem isJson_ofFields : ∀ fields : List (String × Json), ∀ f ∈ ofFields fields, f.2.IsJson
  | [], _, h => nomatch h
  | (_, x) :: fields, f, h => by
    rcases List.mem_cons.mp h with rfl | h
    · exact isJson_ofJson x
    · exact isJson_ofFields fields f h
end

theorem depth_le_of_mem_items {d : Doc} {items : List Doc} (h : d ∈ items) :
    d.depth ≤ depthItems items := by
  induction items with
  | nil => cases h
  | cons x items ih =>
    rw [depthItems]
    rcases List.mem_cons.mp h with rfl | h
    · exact Nat.le_max_left _ _
    · exact Nat.le_trans (ih h) (Nat.le_max_right _ _)

theorem depth_le_of_mem_fields {f : Option String × Doc} {fields : List (Option String × Doc)}
    (h : f ∈ fields) : f.2.depth ≤ depthFields fields := by
  induction fields with
  | nil => cases h
  | cons g fields ih =>
    obtain ⟨key, x⟩ := g
    rw [depthFields]
    rcases List.mem_cons.mp h with rfl | h
    · exact Nat.le_max_left _ _
    · exact Nat.le_trans (ih h) (Nat.le_max_right _ _)

def Fits (levels : Nat) (j : Json) : Prop := (ofJson j).depth ≤ levels

theorem Fits.arr {levels : Nat} {items : List Json} (h : Fits levels (.arr items)) :
    ∃ inner, levels = inner + 1 ∧ ∀ x ∈ items, Fits inner x := by
  rw [Fits, ofJson, depth, ofItems_eq] at h
  refine ⟨levels - 1, by omega, fun x hx => ?_⟩
  have hle := depth_le_of_mem_items (List.mem_map_of_mem (f := ofJson) hx)
  exact Nat.le_trans hle (by omega)

theorem Fits.obj {levels : Nat} {fields : Keyed Json} (h : Fits levels (.obj fields)) :
    ∃ inner, levels = inner + 1 ∧ ∀ p ∈ fields, Fits inner p.2 := by
  rw [Fits, ofJson, depth, ofFields_eq] at h
  refine ⟨levels - 1, by omega, fun p hp => ?_⟩
  have hle := depth_le_of_mem_fields
    (List.mem_map_of_mem (f := fun p : String × Json => (some p.1, ofJson p.2)) hp)
  exact Nat.le_trans hle (by omega)

/-- The reader gives the value back that is written so. -/
def Restores {α : Type} (read : Reader α) (a : α) (j : Json) : Prop :=
  ∀ levels, Fits levels j → read levels (ofJson j) = some a

theorem restores_text (s : String) : Restores readText s (.str s) := by
  intro levels _
  rfl

theorem restores_value {j : Json} (h : j.Distinct) : Restores toJson? j j := by
  induction h with
  | null | bool | int | float | str =>
    intro levels _
    cases levels <;> rfl
  | @arr items _ ih =>
    intro levels hfits
    obtain ⟨inner, rfl, hinner⟩ := hfits.arr
    have hitems : (items.map ofJson).mapM (toJson? inner) = some items :=
      mapM_map_eq_some fun x hx => ih x hx inner (hinner x hx)
    rw [ofJson, ofItems_eq, toJson?, hitems, Option.map_some]
  | @obj fields hkeys _ ih =>
    intro levels hfits
    obtain ⟨inner, rfl, hinner⟩ := hfits.obj
    rw [ofJson, ofFields_eq, toJson?, mapM_map_eq_some, Option.map_some,
      Keyed.ofPairs_of_nodup hkeys]
    intro p hp
    rw [Option.bind_some, ih p hp inner (hinner p hp)]
    rfl

theorem restores_list {α : Type} {item : Reader α} {f : α → Json} {xs : List α}
    (h : ∀ x ∈ xs, Restores item x (f x)) : Restores (readList item) xs (.arr (xs.map f)) := by
  intro levels hfits
  obtain ⟨inner, rfl, hinner⟩ := hfits.arr
  rw [readList, ofJson, ofItems_eq, listItems?, Option.bind_some, List.map_map]
  apply mapM_map_eq_some
  intro x hx
  exact h x hx inner (hinner _ (List.mem_map_of_mem hx))

theorem isNull?_ofJson {j : Json} (h : j ≠ .null) : (ofJson j).isNull? = some false := by
  cases j with
  | null => exact absurd rfl h
  | _ => rfl

theorem optional_restores {α : Type} {read : Reader α} {f : α → Json} {o : Option α}
    {levels : Nat} (h : ∀ a ∈ o, f a ≠ .null ∧ Restores read a (f a))
    (hfits : ∀ a ∈ o, Fits levels (f a)) :
    optional read levels ((o.map f).map ofJson) = some o := by
  cases o with
  | none => rfl
  | some a =>
    obtain ⟨hnull, hrestores⟩ := h a rfl
    simp [optional, isNull?_ofJson hnull, hrestores levels (hfits a rfl)]

section

variable {m : Keyed Json}

theorem fieldNamed_ofFields (name : String) :
    fieldNamed name (ofFields m) = (Keyed.get? m name).map ofJson := by
  induction m with
  | nil => rfl
  | cons p m ih =>
    obtain ⟨k, x⟩ := p
    rw [Keyed.get?]
    by_cases hk : k = name
    · simp [ofFields, fieldNamed, hk]
    · rw [if_neg hk, ← ih, fieldNamed, fieldNamed, ofFields, List.find?_cons_of_neg (by simpa using hk)]

theorem countNamed_ofFields (name : String) :
    countNamed name (ofFields m) = (Keyed.keys m).count name := by
  induction m with
  | nil => rfl
  | cons p m ih =>
    obtain ⟨k, x⟩ := p
    rw [countNamed] at ih ⊢
    by_cases hk : k = name <;> simp [ofFields, Keyed.keys, hk, ih]

/-- A record that is written with no key twice is read field by field, and its fields are written
so that the readers of the fields are let in as deep as they need. -/
theorem readFields_written {levels : Nat} (hkeys : (Keyed.keys m).Nodup)
    (hfits : Fits levels (.obj m)) (names : List String) :
    ∃ inner, levels = inner + 1 ∧
      readFields names levels (ofJson (.obj m)) =
        some (inner, (names.map (Keyed.get? m)).map (Option.map ofJson)) ∧
      ∀ o ∈ names.map (Keyed.get? m), ∀ j ∈ o, Fits inner j := by
  obtain ⟨inner, rfl, hinner⟩ := hfits.obj
  refine ⟨inner, rfl, ?_, ?_⟩
  · have hnamed : (ofFields m).all (fun f => f.1.isSome) = true := by
      simp [ofFields_eq]
    have hcount : (names.all fun n => decide (countNamed n (ofFields m) ≤ 1)) = true := by
      simp [countNamed_ofFields, List.nodup_iff_count_le_one.mp hkeys]
    have hfound : names.map (fun n => fieldNamed n (ofFields m)) =
        (names.map (Keyed.get? m)).map (Option.map ofJson) := by
      simp [fieldNamed_ofFields]
    rw [ofJson, readFields, objectFields?]
    simp only [hnamed, hcount, Bool.and_self, if_true, hfound]
  · intro o ho j hj
    obtain ⟨name, -, rfl⟩ := List.mem_map.mp ho
    exact hinner (name, j) (Keyed.mem_of_get? hj)

end

/-! ## What a reader has given -/

theorem distinct_of_toJson? {levels : Nat} {d : Doc} {j : Json} (hd : d.IsJson)
    (h : d.toJson? levels = some j) : j.Distinct := by
  induction hd generalizing levels j with
  | null => cases levels <;> (cases h; exact .null)
  | bool b => cases levels <;> (cases h; exact .bool b)
  | int n => cases levels <;> (cases h; exact .int n)
  | float bits => cases levels <;> (cases h; exact .float bits)
  | num n =>
    have hnum : number? n = some j := by cases levels <;> exact h
    rw [number?] at hnum
    split at hnum
    · cases hnum
      exact .int _
    · obtain ⟨x, -, rfl⟩ := Option.map_eq_some_iff.mp hnum
      exact .float _
  | str s =>
    have hstr : s.map Json.str = some j := by cases levels <;> exact h
    obtain ⟨text, -, rfl⟩ := Option.map_eq_some_iff.mp hstr
    exact .str text
  | arr _ ih =>
    cases levels with
    | zero => cases h
    | succ inner =>
      obtain ⟨items, hitems, rfl⟩ := Option.map_eq_some_iff.mp h
      refine .arr fun x hx => ?_
      obtain ⟨d, hd, hdx⟩ := exists_of_mapM_eq_some hitems x hx
      exact ih d hd hdx
  | obj _ ih =>
    cases levels with
    | zero => cases h
    | succ inner =>
      obtain ⟨pairs, hpairs, rfl⟩ := Option.map_eq_some_iff.mp h
      refine .obj (Keyed.nodup_ofPairs pairs) fun p hp => ?_
      obtain ⟨f, hf, hfp⟩ := exists_of_mapM_eq_some hpairs p (Keyed.mem_of_ofPairs hp)
      obtain ⟨key, -, hvalue⟩ := Option.bind_eq_some_iff.mp hfp
      obtain ⟨x, hx, rfl⟩ := Option.map_eq_some_iff.mp hvalue
      exact ih f hf hx

theorem number?_ne_null {n : Decimal.Numeral} : number? n ≠ some .null := by
  rw [number?]
  split
  · nofun
  · intro h
    obtain ⟨x, -, hx⟩ := Option.map_eq_some_iff.mp h
    cases hx

theorem eq_null_of_toJson? {levels : Nat} {d : Doc} (hd : d.IsJson)
    (h : d.toJson? levels = some .null) : d = .null := by
  cases hd with
  | null => rfl
  | bool | int | float => cases levels <;> cases h
  | num n => exact absurd (by cases levels <;> exact h) (number?_ne_null (n := n))
  | str s =>
    have hstr : s.map Json.str = some .null := by cases levels <;> exact h
    obtain ⟨text, -, htext⟩ := Option.map_eq_some_iff.mp hstr
    cases htext
  | arr | obj =>
    cases levels with
    | zero => cases h
    | succ inner =>
      obtain ⟨x, -, hx⟩ := Option.map_eq_some_iff.mp h
      cases hx

theorem isJson_of_grammar (fuel : Nat) :
    (∀ cs d rest, value? fuel cs = some (d, rest) → d.IsJson) ∧
    (∀ cs ds rest, items? fuel cs = some (ds, rest) → ∀ d ∈ ds, d.IsJson) ∧
    (∀ cs fs rest, fields? fuel cs = some (fs, rest) → ∀ f ∈ fs, f.2.IsJson) := by
  induction fuel with
  | zero => exact ⟨nofun, nofun, nofun⟩
  | succ fuel ih =>
    obtain ⟨value, items, fields⟩ := ih
    refine ⟨fun cs d rest h => ?_, fun cs ds rest h => ?_, fun cs fs rest h => ?_⟩
    · rw [value?] at h
      split at h
      · cases h
        exact .null
      · cases h
        exact .bool true
      · cases h
        exact .bool false
      · obtain ⟨p, -, hp⟩ := Option.map_eq_some_iff.mp h
        cases hp
        exact .str _
      · split at h
        · cases h
          exact .arr nofun
        · obtain ⟨p, hitems, hp⟩ := Option.map_eq_some_iff.mp h
          cases hp
          exact .arr (items _ _ _ hitems)
      · split at h
        · cases h
          exact .obj nofun
        · obtain ⟨p, hfields, hp⟩ := Option.map_eq_some_iff.mp h
          cases hp
          exact .obj (fields _ _ _ hfields)
      · obtain ⟨p, -, hp⟩ := Option.map_eq_some_iff.mp h
        cases hp
        exact .num _
    · rw [items?] at h
      split at h
      · cases h
      next x rest hx =>
        split at h
        · cases h
          exact List.forall_mem_singleton.mpr (value _ _ _ hx)
        · obtain ⟨p, hitems, hp⟩ := Option.map_eq_some_iff.mp h
          cases hp
          exact List.forall_mem_cons.mpr ⟨value _ _ _ hx, items _ _ _ hitems⟩
        · cases h
    · rw [fields?] at h
      split at h
      · split at h
        · cases h
        next key rest hkey =>
          split at h
          · split at h
            · cases h
            next x rest hx =>
              split at h
              · cases h
                exact List.forall_mem_singleton.mpr (value _ _ _ hx)
              · obtain ⟨p, hfields, hp⟩ := Option.map_eq_some_iff.mp h
                cases hp
                exact List.forall_mem_cons.mpr ⟨value _ _ _ hx, fields _ _ _ hfields⟩
              · cases h
          · cases h
      · cases h

theorem isJson_of_parse? {s : String} {d : Doc} (h : parse? s = some d) : d.IsJson := by
  rw [parse?] at h
  split at h
  next doc rest hvalue =>
    split at h
    · cases h
      exact (isJson_of_grammar _).1 _ _ _ hvalue
    · cases h
  · cases h

theorem isJson_of_listItems? {d : Doc} {items : List Doc} (hd : d.IsJson)
    (h : d.listItems? = some items) : ∀ x ∈ items, x.IsJson := by
  cases hd with
  | arr hitems =>
    cases h
    exact hitems
  | _ => cases h

theorem isJson_of_objectFields? {d : Doc} {fields : List (Option String × Doc)} (hd : d.IsJson)
    (h : d.objectFields? = some fields) : ∀ f ∈ fields, f.2.IsJson := by
  cases hd with
  | obj hfields =>
    cases h
    exact hfields
  | _ => cases h

theorem isJson_of_readFields {names : List String} {levels inner : Nat} {d : Doc}
    {found : List (Option Doc)} (hd : d.IsJson)
    (h : readFields names levels d = some (inner, found)) : ∀ o ∈ found, ∀ x ∈ o, x.IsJson := by
  cases levels with
  | zero =>
    have hblank : d.isBlank = false := by cases hd <;> rfl
    rw [readFields, hblank] at h
    cases h
  | succ levels =>
    rw [readFields] at h
    split at h
    next fields hfields =>
      split at h
      · cases h
        intro o ho x hx
        obtain ⟨name, -, rfl⟩ := List.mem_map.mp ho
        obtain ⟨f, hf, rfl⟩ := Option.map_eq_some_iff.mp hx
        exact isJson_of_objectFields? hd hfields f (List.mem_of_find?_eq_some hf)
      · cases h
    next items _ hitems =>
      split at h
      · cases h
        intro o ho x hx
        rcases List.mem_append.mp ho with ho | ho
        · obtain ⟨y, hy, rfl⟩ := List.mem_map.mp ho
          cases hx
          exact isJson_of_listItems? hd hitems _ hy
        · rw [List.eq_of_mem_replicate ho] at hx
          cases hx
      · cases h
    · cases h

end Doc

end Pipework
