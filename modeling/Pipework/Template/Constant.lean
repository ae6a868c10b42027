import Pipework.Template.Operator

/-! Constant expressions: literals, lists and maps of literals, and operators on constant
expressions. Their value is fixed before anything is evaluated, and a constant conjunction is then
`false` unless both sides are true, whichever side is not. -/

namespace Pipework.Template.Expr

def literal? : Expr → Option Value
  | literal v => some v
  | _ => none

/-- The value of a constant expression; none if the expression is not constant or an operator has no
value for its operands. -/
def constant? : Expr → Option Value
  | literal v => some v
  | list items => (items.mapM literal?).map .list
  | map fields =>
    (fields.mapM fun (p : Expr × Expr) => do
      some (← p.1.literal?, ← p.2.literal?)).map Value.ofPairs
  | unary op e => e.constant?.bind fun v => (op.apply v).toOption
  | binary op a b => do (op.apply (← a.constant?) (← b.constant?)).toOption
  | both a b => do
    let x ← a.constant?
    let y ← b.constant?
    some (if x.isTrue && y.isTrue then y else .bool false)
  | either a b => do
    let x ← a.constant?
    let y ← b.constant?
    some (if x.isTrue then x else y)
  | _ => none

end Pipework.Template.Expr
