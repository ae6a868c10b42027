import Pipework.Yaml.Node
import Pipework.Yaml.Word

/-! Documents of YAML. An alias stands for what the node with its anchor holds. -/

namespace Pipework.Yaml

namespace Node

mutual
def anchors : Node → List String
  | .alias _ => []
  | .scalar props _ _ => props.anchor.toList
  | .list props items => props.anchor.toList ++ itemAnchors items
  | .map props fields => props.anchor.toList ++ fieldAnchors fields
termination_by structural n => n

def itemAnchors : List Node → List String
  | [] => []
  | x :: xs => anchors x ++ itemAnchors xs
termination_by structural xs => xs

def fieldAnchors : List (Node × Node) → List String
  | [] => []
  | (k, x) :: xs => anchors k ++ anchors x ++ fieldAnchors xs
termination_by structural xs => xs
end

mutual
def size : Node → Nat
  | .alias _ => 1
  | .scalar _ _ _ => 1
  | .list _ items => itemsSize items + 2
  | .map _ fields => fieldsSize fields + 2
termination_by structural n => n

def itemsSize : List Node → Nat
  | [] => 0
  | x :: xs => size x + itemsSize xs
termination_by structural xs => xs

def fieldsSize : List (Node × Node) → Nat
  | [] => 0
  | (k, x) :: xs => size k + size x + fieldsSize xs
termination_by structural xs => xs
end

end Node

structure Shared where
  doc : Doc
  aliases : Nat

/-- The numbers of anchors with these names: how many other names stand in front of each, after
those seen before. An anchor whose name stands there already takes a number that the next name may
have as well. -/
def anchorNumbers : List String → List String → List Nat
  | _, [] => []
  | seen, name :: names =>
    seen.length :: anchorNumbers (if seen.contains name then seen else name :: seen) names

structure Anchored where
  names : List String
  numbers : List Nat
  known : List Shared
  passed : Nat
  found : List (Nat × Shared)

def lastIndex? {α : Type} (p : α → Bool) (xs : List α) : Option Nat :=
  (xs.zipIdx.reverse.find? fun x => p x.1).map Prod.snd

namespace Anchored

/-- What an alias stands for: among all anchors the last one with the number of the last one in
front that has its name. -/
def meaning? (name : String) (a : Anchored) : Option Shared := do
  let named ← lastIndex? (· == name) (a.names.take a.passed)
  let number ← a.numbers[named]?
  let i ← lastIndex? (· == number) a.numbers
  (a.found.lookup i).or a.known[i]?

def note (at? : Option Nat) (s : Shared) (a : Anchored) : Anchored :=
  match at? with
  | some i => { a with found := (i, s) :: a.found }
  | none => a

def pass (props : Props) (a : Anchored) : Option Nat × Anchored :=
  if props.anchor.isSome then (some a.passed, { a with passed := a.passed + 1 }) else (none, a)

end Anchored

def labelled (props : Props) (d : Doc) : Doc :=
  if (props.tag.map TagKind.ofTag) = some .own then .labelled d else d

def keyText? : Doc → Option String
  | .word w => some w.text
  | _ => none

mutual
def share? (a : Anchored) : Node → Option (Shared × Anchored)
  | .alias name => do
    let s ← a.meaning? name
    some (⟨s.doc, s.aliases + 1⟩, a)
  | .scalar props isPlain text =>
    let (at?, a) := a.pass props
    let s : Shared := ⟨.word (wordOf props.tag isPlain text), 0⟩
    some (s, a.note at? s)
  | .list props items => do
    let (at?, a) := a.pass props
    let (items, aliases, a) ← shareItems? a items
    let s : Shared := ⟨labelled props (.arr items), aliases⟩
    some (s, a.note at? s)
  | .map props fields => do
    let (at?, a) := a.pass props
    let (fields, a) ← shareFields? a fields
    let s : Shared := ⟨labelled props (.obj (fields.map fun (k, s) => (k, s.doc))),
      (fields.map fun f => f.2.aliases).sum⟩
    some (s, a.note at? s)
termination_by structural n => n

def shareItems? (a : Anchored) : List Node → Option (List Doc × Nat × Anchored)
  | [] => some ([], 0, a)
  | x :: xs => do
    let (s, a) ← share? a x
    let (items, aliases, a) ← shareItems? a xs
    some (s.doc :: items, s.aliases + aliases, a)
termination_by structural xs => xs

def shareFields? (a : Anchored) :
    List (Node × Node) → Option (List (Option String × Shared) × Anchored)
  | [] => some ([], a)
  | (k, x) :: xs => do
    let (k, a) ← share? a k
    let (s, a) ← share? a x
    let (fields, a) ← shareFields? a xs
    some ((keyText? k.doc, ⟨s.doc, k.aliases + s.aliases⟩) :: fields, a)
termination_by structural xs => xs
end

def Anchored.ofNames (names : List String) : Anchored :=
  ⟨names, anchorNumbers [] names, names.map fun _ => ⟨.endless, 0⟩, 0, []⟩

def Anchored.learn? (n : Node) : Nat → Anchored → Option Anchored
  | 0, a => some a
  | rounds + 1, a => do
    let (_, b) ← share? a n
    let known := (List.range a.names.length).map fun i => (b.found.lookup i).getD ⟨.endless, 0⟩
    learn? n rounds { a with known }

/-- The anchors of a document. Only anchors that share their number with another one can be meant
before they are passed, and one pass more opens nodes that hold themselves. -/
def Anchored.ofNode? (n : Node) : Option Anchored :=
  let a := Anchored.ofNames n.anchors
  if a.names.isEmpty then some a
  else a.learn? n (a.numbers.length - a.numbers.eraseDups.length + 1)

def aliasesPerPart : Nat := 100

/-- What a document holds. A field that goes through too many aliases is as good as endless. -/
def docOf? (n : Node) : Option Doc := do
  let a ← Anchored.ofNode? n
  let limit := aliasesPerPart * n.size
  let known (s : Shared) : Doc := if s.aliases ≤ limit then s.doc else .endless
  match n with
  | .map props fields =>
    let (fields, _) ← shareFields? (a.pass props).2 fields
    some (.obj (fields.map fun (k, s) => (k, known s)))
  | n =>
    let (s, _) ← share? a n
    some (known s)

def parse? (s : String) : Option Doc := do
  match ← Node.ofText? s with
  | none => some (.obj [])
  | some n => docOf? n

end Pipework.Yaml
