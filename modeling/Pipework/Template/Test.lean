import Pipework.Template.Args
import Pipework.Template.Operator

/-! The tests that templates may use. -/

namespace Pipework.Template

abbrev Test := Value → Args → Except Fault Bool

namespace Test

def alone (f : Value → Bool) : Test := fun v args => do
  args.atMost 0
  .ok (f v)

def against (f : Value → Value → Except Fault Bool) : Test := fun v args => do
  let other ← args.required 0
  args.atMost 1
  f v other

def isNumber : Value → Bool
  | .int _ _ | .float _ => true
  | _ => false

def divides (divisor v : Option Int) : Bool :=
  match divisor, v with
  | some m, some n => m != 0 && n % m == 0
  | _, _ => false

def named? : String → Option Test
  | "undefined" => some (alone Value.isUndefined)
  | "defined" => some (alone fun v => !v.isUndefined)
  | "none" => some (alone fun | .nothing => true | _ => false)
  | "boolean" => some (alone fun | .bool _ => true | _ => false)
  | "number" => some (alone isNumber)
  | "integer" | "int" => some (alone fun | .int _ _ => true | _ => false)
  | "float" => some (alone fun | .float _ => true | _ => false)
  | "string" => some (alone fun v => v.text?.isSome)
  | "sequence" => some (alone fun | .list _ => true | _ => false)
  | "mapping" => some (alone fun v => v.fields?.isSome)
  | "iterable" => some (alone fun v => v.items?.isSome)
  | "odd" => some (alone fun v => v.toInt?.any fun n => n % 2 != 0)
  | "even" => some (alone fun v => v.toInt?.any fun n => n % 2 == 0)
  | "true" => some (alone fun | .bool b => b | _ => false)
  | "false" => some (alone fun | .bool b => !b | _ => false)
  | "divisibleby" => some (against fun v w => .ok (divides w.toInt? v.toInt?))
  | "eq" | "equalto" | "==" => some (against fun v w => .ok (v.eq w))
  | "ne" | "!=" => some (against fun v w => .ok !(v.eq w))
  | "lt" | "lessthan" | "<" => some (against fun v w => .ok (v.cmp w == .lt))
  | "le" | "<=" => some (against fun v w => .ok (v.cmp w != .gt))
  | "gt" | "greaterthan" | ">" => some (against fun v w => .ok (v.cmp w == .gt))
  | "ge" | ">=" => some (against fun v w => .ok (v.cmp w != .lt))
  | "in" => some (against fun v w => v.isIn w)
  | "safe" | "escaped" => some (alone fun | .markup _ => true | _ => false)
  | "startingwith" => some (against fun v w => .ok (w.text.toList.isPrefixOf v.text.toList))
  | "endingwith" =>
    some (against fun v w => .ok (w.text.toList.reverse.isPrefixOf v.text.toList.reverse))
  | _ => none

def run (name : String) (v : Value) (args : Args) : Except Fault Bool :=
  match named? name with
  | some f => f v args
  | none => .error .unknownTest

end Test

end Pipework.Template
