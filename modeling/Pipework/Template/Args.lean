import Pipework.Template.Order

/-! Arguments of filters, tests and functions. They are read in their order, and one too many is a
fault only after those before it have been read. Arguments with names count together as one more, a
map, unless what is called knows names. -/

namespace Pipework.Template

structure Args where
  places : List Value
  named : Option (List (Value × Value))

namespace Args

def empty : Args := ⟨[], none⟩

def size (a : Args) : Nat := a.places.length + if a.named.isSome then 1 else 0

def atMost (n : Nat) (a : Args) : Except Fault Unit :=
  if n < a.size then .error .tooManyArguments else .ok ()

def isNamedAt (i : Nat) (a : Args) : Bool := i == a.places.length && a.named.isSome

def value? (i : Nat) (a : Args) : Option Value :=
  if a.isNamedAt i then a.named.map .map else a.places[i]?

def required (i : Nat) (a : Args) : Except Fault Value :=
  match a.value? i with
  | some v => .ok v
  | none => .error .missingArgument

def textAt (i : Nat) (a : Args) (v : Value) : Except Fault String :=
  if a.isNamedAt i then .error .invalidOperation else .ok v.text

def text (i : Nat) (a : Args) : Except Fault String := do a.textAt i (← a.required i)

def optional? (i : Nat) (a : Args) : Option Value :=
  match a.value? i with
  | some .nothing | some .undefined | none => .none
  | some v => some v

def optionalText (i : Nat) (a : Args) : Except Fault (Option String) := do
  match a.optional? i with
  | none => .ok none
  | some v => .ok (some (← a.textAt i v))

def toInt (v : Value) : Except Fault Int :=
  match v.toInt? with
  | some n => if Width.signed 64 n then .ok n else .error .invalidOperation
  | none => .error .invalidOperation

def toCount (v : Value) : Except Fault Nat :=
  match v.toInt? with
  | some n => if Width.unsigned 64 n then .ok n.toNat else .error .invalidOperation
  | none => .error .invalidOperation

def toBool : Value → Except Fault Bool
  | .bool b => .ok b
  | _ => .error .invalidOperation

def toText (v : Value) : Except Fault String :=
  match v.text? with
  | some s => .ok s
  | none => .error .invalidOperation

def named? (name : String) (a : Args) : Option Value :=
  match a.named.bind (Value.lookup (.str name)) with
  | some .nothing | some .undefined | none => .none
  | some v => some v

def flag (name : String) (a : Args) : Except Fault Bool :=
  match a.named? name with
  | none => .ok false
  | some v => toBool v

def placesAtMost (n : Nat) (a : Args) : Except Fault Unit :=
  if n < a.places.length then .error .tooManyArguments else .ok ()

def onlyNamed (names : List String) (a : Args) : Except Fault Unit :=
  if (a.named.getD []).any fun p => !names.any fun name => p.1.text? == some name then
    .error .tooManyArguments
  else .ok ()

end Args

end Pipework.Template
