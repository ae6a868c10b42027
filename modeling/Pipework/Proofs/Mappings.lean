import Pipework.Proofs.Templates
import Pipework.Template.Sole

/-!
# Mappings are resolved string by string

The strings of a mapping are rendered in the order in which they stand, up to the first that fails.
If none does, each result takes the place of its string, whatever it is, and nothing else changes.
-/

namespace Pipework

namespace Text

theorem occursIn_iff_infix {needle cs : List Char} :
    occursIn needle cs = true ↔ needle <:+: cs := by
  induction cs with
  | nil => simp [occursIn]
  | cons c cs ih => simp [occursIn, List.infix_cons_iff, ih]

end Text

namespace Json

mutual
def mapStrings (f : String → Json) : Json → Json
  | .str s => f s
  | .arr items => .arr (mapItems f items)
  | .obj fields => .obj (mapFields f fields)
  | .null => .null
  | .bool b => .bool b
  | .int n => .int n
  | .float bits => .float bits
termination_by structural j => j

def mapItems (f : String → Json) : List Json → List Json
  | [] => []
  | x :: xs => mapStrings f x :: mapItems f xs
termination_by structural items => items

def mapFields (f : String → Json) : List (String × Json) → List (String × Json)
  | [] => []
  | (key, x) :: xs => (key, mapStrings f x) :: mapFields f xs
termination_by structural fields => fields
end

def at? : List Nat → Json → Option Json
  | [], j => some j
  | i :: place, .arr items => items[i]?.bind (at? place)
  | i :: place, .obj fields => fields[i]?.bind fun p => at? place p.2
  | _ :: _, _ => none

/-- What becomes of the value at one place if strings are replaced: a string is replaced as a whole,
and any other value stays, but for what is inside of it. -/
inductive Replaced (f : String → Json) : Json → Json → Prop
  | str (s : String) : Replaced f (.str s) (f s)
  | arr {items items' : List Json} : items'.length = items.length →
      Replaced f (.arr items) (.arr items')
  | obj {fields fields' : List (String × Json)} : Keyed.keys fields' = Keyed.keys fields →
      Replaced f (.obj fields) (.obj fields')
  | null : Replaced f .null .null
  | bool (b : Bool) : Replaced f (.bool b) (.bool b)
  | int (n : Int) : Replaced f (.int n) (.int n)
  | float (bits : UInt64) : Replaced f (.float bits) (.float bits)

variable {f g : String → Json}

theorem mapItems_eq_map (items : List Json) : mapItems f items = items.map (mapStrings f) := by
  induction items with
  | nil => rfl
  | cons x xs ih => rw [mapItems, ih, List.map_cons]

theorem mapFields_eq_map (fields : List (String × Json)) :
    mapFields f fields = fields.map fun p => (p.1, mapStrings f p.2) := by
  induction fields with
  | nil => rfl
  | cons p ps ih => rw [mapFields, ih, List.map_cons]

mutual
theorem mapStrings_congr : (j : Json) → (∀ s ∈ j.strings, f s = g s) →
    mapStrings f j = mapStrings g j
  | .str s, h => h s List.mem_cons_self
  | .arr items, h => congrArg Json.arr (mapItems_congr items h)
  | .obj fields, h => congrArg Json.obj (mapFields_congr fields h)
  | .null, _ => rfl
  | .bool _, _ => rfl
  | .int _, _ => rfl
  | .float _, _ => rfl

theorem mapItems_congr : (items : List Json) → (∀ s ∈ stringsOfItems items, f s = g s) →
    mapItems f items = mapItems g items
  | [], _ => rfl
  | x :: xs, h => congrArg₂ List.cons
      (mapStrings_congr x fun s hs => h s (List.mem_append_left _ hs))
      (mapItems_congr xs fun s hs => h s (List.mem_append_right _ hs))

theorem mapFields_congr : (fields : List (String × Json)) →
    (∀ s ∈ stringsOfFields fields, f s = g s) → mapFields f fields = mapFields g fields
  | [], _ => rfl
  | (key, x) :: xs, h => congrArg₂ List.cons
      (congrArg (Prod.mk key) (mapStrings_congr x fun s hs => h s (List.mem_append_left _ hs)))
      (mapFields_congr xs fun s hs => h s (List.mem_append_right _ hs))
end

mutual
theorem mapStrings_str : (j : Json) → mapStrings .str j = j
  | .str _ => rfl
  | .arr items => congrArg Json.arr (mapItems_str items)
  | .obj fields => congrArg Json.obj (mapFields_str fields)
  | .null => rfl
  | .bool _ => rfl
  | .int _ => rfl
  | .float _ => rfl

theorem mapItems_str : (items : List Json) → mapItems .str items = items
  | [] => rfl
  | x :: xs => congrArg₂ List.cons (mapStrings_str x) (mapItems_str xs)

theorem mapFields_str : (fields : List (String × Json)) → mapFields .str fields = fields
  | [] => rfl
  | (key, x) :: xs => congrArg₂ List.cons (congrArg (Prod.mk key) (mapStrings_str x))
      (mapFields_str xs)
end

theorem replaced_mapStrings (j : Json) : Replaced f j (mapStrings f j) := by
  cases j with
  | str s => exact .str s
  | arr items => exact .arr (by rw [mapItems_eq_map, List.length_map])
  | obj fields =>
    refine .obj ?_
    rw [mapFields_eq_map, Keyed.keys, List.map_map]
    rfl
  | null => exact .null
  | bool b => exact .bool b
  | int n => exact .int n
  | float bits => exact .float bits

theorem at?_mapStrings {place : List Nat} {j k : Json} (h : j.at? place = some k) :
    (mapStrings f j).at? place = some (mapStrings f k) := by
  induction place generalizing j with
  | nil =>
    cases h
    rfl
  | cons i place ih =>
    cases j with
    | arr items =>
      obtain ⟨x, hx, hk⟩ := Option.bind_eq_some_iff.mp h
      have hx' : (mapItems f items)[i]? = some (mapStrings f x) := by
        rw [mapItems_eq_map, List.getElem?_map, hx, Option.map_some]
      simp only [mapStrings, at?, hx', Option.bind_some, ih hk]
    | obj fields =>
      obtain ⟨p, hp, hk⟩ := Option.bind_eq_some_iff.mp h
      have hp' : (mapFields f fields)[i]? = some (p.1, mapStrings f p.2) := by
        rw [mapFields_eq_map, List.getElem?_map, hp, Option.map_some]
      simp only [mapStrings, at?, hp', Option.bind_some, ih hk]
    | null | bool | int | float | str => cases h

end Json

namespace Evaluator

variable (ev : Evaluator) (data : Json)

def rendering (template : String) : Json := (ev.render template data).toOption.getD .null

def failure? (templates : List String) : Option NodeError :=
  templates.findSome? fun s => match ev.render s data with
    | .error e => some e
    | .ok _ => none

variable {ev data}

theorem failure?_append (ts us : List String) :
    ev.failure? data (ts ++ us) = (ev.failure? data ts).or (ev.failure? data us) :=
  List.findSome?_append

theorem failure?_eq_none {ts : List String} :
    ev.failure? data ts = none ↔ ∀ s ∈ ts, ∃ j, ev.render s data = .ok j := by
  rw [failure?, List.findSome?_eq_none_iff]
  refine forall₂_congr fun s _ => ?_
  cases ev.render s data <;> simp

theorem failure?_eq_some {ts : List String} {e : NodeError} :
    ev.failure? data ts = some e ↔ ∃ before s after, ts = before ++ s :: after ∧
      (∀ t ∈ before, ∃ j, ev.render t data = .ok j) ∧ ev.render s data = .error e := by
  rw [failure?, List.findSome?_eq_some_iff]
  refine exists_congr fun before => exists_congr fun s => exists_congr fun after => ?_
  rw [← List.findSome?_eq_none_iff, ← failure?, failure?_eq_none]
  cases ev.render s data <;> simp [and_comm]

variable (ev data)

mutual
theorem resolve_eq : (spec : Json) → ev.resolve data spec =
      match ev.failure? data spec.strings with
      | some e => .error e
      | none => .ok (spec.mapStrings (ev.rendering data))
  | .str s => by
    cases hs : ev.render s data <;>
      simp [resolve, Json.strings, Json.mapStrings, failure?, rendering, hs, Except.toOption]
  | .arr items => by
    rw [resolve, resolveItems_eq, Json.strings, Json.mapStrings]
    cases ev.failure? data (Json.stringsOfItems items) <;> rfl
  | .obj fields => by
    rw [resolve, resolveFields_eq, Json.strings, Json.mapStrings]
    cases ev.failure? data (Json.stringsOfFields fields) <;> rfl
  | .null => rfl
  | .bool _ => rfl
  | .int _ => rfl
  | .float _ => rfl

theorem resolveItems_eq : (items : List Json) → ev.resolveItems data items =
      match ev.failure? data (Json.stringsOfItems items) with
      | some e => .error e
      | none => .ok (Json.mapItems (ev.rendering data) items)
  | [] => rfl
  | x :: xs => by
    rw [resolveItems, resolve_eq x, resolveItems_eq xs, Json.stringsOfItems, failure?_append]
    cases ev.failure? data x.strings with
    | some e => rfl
    | none => cases ev.failure? data (Json.stringsOfItems xs) <;> rfl

theorem resolveFields_eq : (fields : List (String × Json)) → ev.resolveFields data fields =
      match ev.failure? data (Json.stringsOfFields fields) with
      | some e => .error e
      | none => .ok (Json.mapFields (ev.rendering data) fields)
  | [] => rfl
  | (key, x) :: xs => by
    rw [resolveFields, resolve_eq x, resolveFields_eq xs, Json.stringsOfFields, failure?_append]
    cases ev.failure? data x.strings with
    | some e => rfl
    | none => cases ev.failure? data (Json.stringsOfFields xs) <;> rfl
end

variable {ev data} in
theorem resolve_eq_ok {spec j : Json} : ev.resolve data spec = .ok j ↔
    (∀ s ∈ spec.strings, ∃ k, ev.render s data = .ok k) ∧
      j = spec.mapStrings (ev.rendering data) := by
  rw [resolve_eq, ← failure?_eq_none]
  cases ev.failure? data spec.strings <;> simp [eq_comm]

variable {ev data} in
theorem resolve_eq_error {spec : Json} {e : NodeError} :
    ev.resolve data spec = .error e ↔ ev.failure? data spec.strings = some e := by
  rw [resolve_eq]
  cases ev.failure? data spec.strings <;> simp

theorem templates_render_of_unmarked {s : String}
    (h : ¬ ['{', '{'] <:+: s.toList ∧ ¬ ['{', '%'] <:+: s.toList) :
    templates.render s data = .ok (.str s) := by
  simp only [← Text.occursIn_iff_infix, Bool.not_eq_true] at h
  simp [templates, Template.render, Template.hasBlock, h.1, h.2, Except.mapError]

/-- A mapping is resolved exactly if all of its strings, however deep, can be rendered, and then the
result is the mapping with the results of its strings in their places: at every place stands the
result of a string where there was a string, a list of the same length where there was a list, an
object with the same keys where there was an object, and what there was where there was anything
else. Otherwise the error is that of the first string that fails. Strings without marks of a block
stand for themselves, and so does a mapping with no other strings. -/
theorem resolve_stringwise (spec : Json) :
    ((∃ j, ev.resolve data spec = .ok j) ↔
      ∀ s ∈ spec.strings, ∃ j, ev.render s data = .ok j) ∧
    (∀ f : String → Json, (∀ s ∈ spec.strings, ev.render s data = .ok (f s)) →
      ev.resolve data spec = .ok (spec.mapStrings f) ∧
      ∀ place j, spec.at? place = some j →
        ∃ j', (spec.mapStrings f).at? place = some j' ∧ j.Replaced f j') ∧
    (∀ e, ev.resolve data spec = .error e ↔
      ∃ before s after, spec.strings = before ++ s :: after ∧
        (∀ t ∈ before, ∃ j, ev.render t data = .ok j) ∧ ev.render s data = .error e) ∧
    ((∀ s ∈ spec.strings, ¬ ['{', '{'] <:+: s.toList ∧ ¬ ['{', '%'] <:+: s.toList) →
      templates.resolve data spec = .ok spec) := by
  have replaced {ev : Evaluator} {f : String → Json}
      (hf : ∀ s ∈ spec.strings, ev.render s data = .ok (f s)) :
      ev.resolve data spec = .ok (spec.mapStrings f) := by
    refine resolve_eq_ok.mpr ⟨fun s hs => ⟨f s, hf s hs⟩, Json.mapStrings_congr spec fun s hs => ?_⟩
    rw [rendering, hf s hs]
    rfl
  refine ⟨?_, fun f hf => ⟨replaced hf, fun place j hj => ?_⟩, fun e => ?_, fun hplain => ?_⟩
  · simp only [resolve_eq_ok, exists_and_left, exists_eq, and_true]
  · exact ⟨_, Json.at?_mapStrings hj, Json.replaced_mapStrings j⟩
  · rw [resolve_eq_error, failure?_eq_some]
  · have hself := replaced fun s hs => templates_render_of_unmarked data (hplain s hs)
    rwa [Json.mapStrings_str] at hself

end Evaluator

-- {"cmd": "{{ input[0] }}", "list": ["{{ n }}", 7, null, "n"]}
def nestedMapping : Json :=
  .obj [("cmd", .str "\x7b\x7b input[0] \x7d\x7d"),
    ("list", .arr [.str "\x7b\x7b n \x7d\x7d", .int 7, .null, .str "n"])]

def hiData : Json := .obj [("input", .arr [.str "hi"]), ("n", .int 2)]

theorem resolved_nestedMapping :
    Evaluator.templates.resolve hiData nestedMapping =
        .ok (.obj [("cmd", .str "hi"), ("list", .arr [.int 2, .int 7, .null, .str "n"])]) ∧
      Evaluator.templates.resolve (.obj []) nestedMapping =
        .error (Template.Fault.toError .undefinedValue) := by
  obtain ⟨-, hok, -, -⟩ := Evaluator.templates.resolve_stringwise hiData nestedMapping
  obtain ⟨-, -, herror, -⟩ := Evaluator.templates.resolve_stringwise (.obj []) nestedMapping
  obtain ⟨hresolve, -⟩ := hok (Evaluator.templates.rendering hiData) (by decide +kernel)
  refine ⟨hresolve.trans (by decide +kernel), (herror _).mpr ?_⟩
  exact ⟨[], "\x7b\x7b input[0] \x7d\x7d", ["\x7b\x7b n \x7d\x7d", "n"], by decide +kernel,
    List.forall_mem_nil _, by decide +kernel⟩

end Pipework
