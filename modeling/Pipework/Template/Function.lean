import Pipework.Template.Args

/-! The functions that templates may call. -/

namespace Pipework.Template

namespace Builtin

/-- From a start to before a stop, in steps that may lead down. A range has no more than a hundred
thousand items. -/
def rangeItems (start stop step : Int) : Except Fault (List Value) :=
  if step = 0 then .error .invalidOperation
  else
    let count :=
      if 0 < step then ((stop - start + step - 1) / step).toNat
      else ((start - stop - step - 1) / -step).toNat
    if 100000 < count then .error .invalidOperation
    else .ok ((List.range count).map fun (k : Nat) => .int (start + k * step) .signed64)

def callRange (args : Args) : Except Fault Value := do
  let a ← Args.toInt (← args.required 0)
  let b ← (args.optional? 1).mapM Args.toInt
  let step ← (args.optional? 2).mapM Args.toInt
  args.atMost 3
  let items ← match b with
    | some b => rangeItems a b (step.getD 1)
    | none => rangeItems 0 a (step.getD 1)
  .ok (.series items)

def callDict (args : Args) : Except Fault Value := do
  let v := (args.places[0]?).getD .undefined
  args.placesAtMost 1
  let fields ← match v, v.fields? with
    | .undefined, _ | .nothing, _ => .ok []
    | _, some fields => .ok fields
    | _, none => .error .invalidOperation
  .ok (.map (Value.putAll (args.named.getD []) fields))

def spaceFields (args : Args) : Except Fault (List (Value × Value)) := do
  let v := args.optional? 0
  args.atMost 1
  match v with
  | none => .ok []
  | some v => match v.fields? with
    | some fields =>
      if fields.all fun p => p.1.text?.isSome then .ok fields else .error .invalidOperation
    | none => .error .invalidOperation

end Builtin

end Pipework.Template
