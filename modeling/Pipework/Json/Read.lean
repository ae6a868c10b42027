import Pipework.Json.Doc

/-! Reading typed values from documents. A record is an object with known field names, or a list of
its fields in their order; unknown fields are passed over, and a known one may stand only once. The
number that every reader takes is how many levels of nesting it may still enter. -/

namespace Pipework.Doc

abbrev Reader (α : Type) := Nat → Doc → Option α

def isNull? : Doc → Option Bool
  | .null => some true
  | .word w => w.isNull
  | _ => some false

def isBlank : Doc → Bool
  | .word w => w.isBlank
  | _ => false

def readText : Reader String
  | _, .str s => s
  | _, .word w => some w.text
  | _, _ => none

def listItems? : Doc → Option (List Doc)
  | .arr items => some items
  | .labelled d => listItems? d
  | .word w => if w.isBlank then some [] else none
  | _ => none

def objectFields? : Doc → Option (List (Option String × Doc))
  | .obj fields => some fields
  | .labelled d => objectFields? d
  | .word w => if w.isBlank then some [] else none
  | _ => none

def readList {α : Type} (item : Reader α) : Reader (List α)
  | 0, d => if d.isBlank then some [] else none
  | levels + 1, d => d.listItems?.bind (·.mapM (item levels))

def fieldNamed (name : String) (fields : List (Option String × Doc)) : Option Doc :=
  (fields.find? fun f => f.1 == some name).map Prod.snd

def countNamed (name : String) (fields : List (Option String × Doc)) : Nat :=
  fields.countP fun f => f.1 == some name

def readFields (names : List String) : Reader (Nat × List (Option Doc))
  | 0, d => if d.isBlank then some (0, names.map fun _ => none) else none
  | levels + 1, d => match d.objectFields?, d.listItems? with
    | some fields, _ =>
      if fields.all (·.1.isSome) && names.all fun n => countNamed n fields ≤ 1 then
        some (levels, names.map fun n => fieldNamed n fields)
      else none
    | none, some items =>
      if items.length ≤ names.length then
        some (levels, items.map some ++ List.replicate (names.length - items.length) none)
      else none
    | none, none => none

def optional {α : Type} (read : Reader α) (levels : Nat) : Option Doc → Option (Option α)
  | none => some none
  | some d => d.isNull?.bind fun isNull => if isNull then some none else (read levels d).map some

def withDefault {α : Type} (default : α) (read : Reader α) (levels : Nat) : Option Doc → Option α
  | none => some default
  | some d => read levels d

def required {α : Type} (read : Reader α) (levels : Nat) : Option Doc → Option α
  | none => none
  | some d => read levels d

def readNat : Reader Nat := fun levels d =>
  match toJson? levels d with
  | some (.int n) => if Width.unsigned 64 n then some n.toNat else none
  | _ => none

end Pipework.Doc
