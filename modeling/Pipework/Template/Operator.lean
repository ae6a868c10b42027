import Pipework.Template.Order
import Pipework.Template.Expr

/-! What the operators do, and how items of values are found. -/

namespace Pipework.Template

namespace Value

def checked (n : Int) : Except Fault Value :=
  if fits n then .ok (int n (.ofResult n)) else .error .invalidOperation

/-- The remainder of a division toward zero, without rounding: both numbers are whole multiples of
one power of two. -/
def floatRemainder (x y : Float) : Float :=
  if !x.isFinite || y.isNaN || y == 0 then 0.0 / 0.0
  else if y.isInf then x
  else
    let a := Decimal.binary x.toBits
    let b := Decimal.binary y.toBits
    let e := min a.exponent b.exponent
    let m := a.mantissa * twoTo (a.exponent - e).toNat
    let n := b.mantissa * twoTo (b.exponent - e).toNat
    let r := Float.scaleB (Float.ofNat (m % n)) e
    if Decimal.isNegative x.toBits then -r else r

def truncate (x : Float) : Float :=
  if Decimal.isNegative x.toBits then Float.ceil x else Float.floor x

def floatQuotient (x y : Float) : Float :=
  let q := truncate (x / y)
  if floatRemainder x y < 0 then (if y > 0 then q - 1 else q + 1) else q

def repeated {α : Type} (n : Nat) (xs : List α) : List α := (List.replicate n xs).flatten

def times (v : Value) : Except Fault Nat :=
  match v.toInt? with
  | some n => if 0 ≤ n then .ok n.toNat else .error .invalidOperation
  | none => .error .invalidOperation

def add (a b : Value) : Except Fault Value :=
  match a, b with
  | str s, str t => .ok (str (s ++ t))
  | list xs, list ys | list xs, series ys | series xs, list ys | series xs, series ys =>
    .ok (series (xs ++ ys))
  | a, b => match numbers? false a b with
    | some (.ints m n) => checked (m + n)
    | some (.floats x y) => .ok (float (x + y))
    | none => .error .invalidOperation

def subtract (a b : Value) : Except Fault Value :=
  match numbers? false a b with
  | some (.ints m n) => checked (m - n)
  | some (.floats x y) => .ok (float (x - y))
  | none => .error .invalidOperation

def multiply (a b : Value) : Except Fault Value :=
  match a, b with
  | str s, n => (times n).map fun n => str (String.ofList (repeated n s.toList))
  | n, str s => (times n).map fun n => str (String.ofList (repeated n s.toList))
  | list xs, n | n, list xs => (times n).map fun n => series (repeated n xs)
  | series xs, n | n, series xs => (times n).map fun n => series (repeated n xs)
  | a, b => match numbers? false a b with
    | some (.ints m n) => checked (m * n)
    | some (.floats x y) => .ok (float (x * y))
    | none => .error .invalidOperation

def divide (a b : Value) : Except Fault Value :=
  match toFloat? false a, toFloat? false b with
  | some x, some y => .ok (float (x / y))
  | _, _ => .error .invalidOperation

def floorDivide (a b : Value) : Except Fault Value :=
  match numbers? false a b with
  | some (.ints m n) => if n = 0 then .error .invalidOperation else checked (m / n)
  | some (.floats x y) => .ok (float (floatQuotient x y))
  | none => .error .invalidOperation

def modulo (a b : Value) : Except Fault Value :=
  match numbers? false a b with
  | some (.ints m n) => if n = 0 then .error .invalidOperation else checked (m % n)
  | some (.floats x y) => .ok (float (floatRemainder x y))
  | none => .error .invalidOperation

/-- Powers of integers have exponents of 32 bits; all but those of -1, 0 and 1 are out of range from
an exponent of 128 on. -/
def power (a b : Value) : Except Fault Value :=
  match numbers? false a b with
  | some (.ints m n) =>
    if !Width.unsigned 32 n then .error .invalidOperation
    else if m.natAbs ≤ 1 then checked (if n = 0 then 1 else if n % 2 = 0 then m * m else m)
    else if 128 ≤ n then .error .invalidOperation
    else checked (Int.pow m n.toNat)
  | some (.floats x y) => .ok (float (Float.pow x y))
  | none => .error .invalidOperation

/-- The one number without sign whose opposite needs all 128 bits stays as it is. -/
def negate : Value → Except Fault Value
  | int n word =>
    if word = .unsigned128 && n = twoTo 127 then .ok (int n word)
    else if fits n then checked (-n)
    else .error .invalidOperation
  | float x => .ok (float (-x))
  | _ => .error .invalidOperation

def isIn (v container : Value) : Except Fault Bool :=
  match container with
  | undefined => .ok false
  | str s | markup s => .ok (Text.contains s v.text)
  | list items | series items => .ok (items.any (eq · v))
  | map fields | loop _ _ fields | space _ fields => .ok (lookup v fields).isSome
  | builtin _ | routine _ _ => .ok false
  | nothing | bool _ | int _ _ | float _ => .error .invalidOperation

def place? (size : Nat) (key : Value) : Option Nat :=
  match key.toInt? with
  | some i =>
    if !Width.signed 64 i then none
    else if 0 ≤ i then some i.toNat
    else if i.natAbs ≤ size then some (size - i.natAbs)
    else none
  | none => none

def itemOf (v key : Value) : Except Fault Value :=
  match v with
  | undefined => .error .undefinedValue
  | str s | markup s => .ok (((place? s.length key).bind ((characters s)[·]?)).getD undefined)
  | list items | series items =>
    .ok (((place? items.length key).bind (items[·]?)).getD undefined)
  | v => .ok ((v.fields?.bind (lookup key)).getD undefined)

def fieldOf (v : Value) (name : String) : Except Fault Value :=
  match v with
  | undefined => .error .undefinedValue
  | v => .ok ((v.fields?.bind (lookup (str name))).getD undefined)

def bound : Value → Except Fault (Option Int)
  | nothing => .ok none
  | v => match v.toInt? with
    | some i => if Width.signed 64 i then .ok (some i) else .error .invalidOperation
    | none => .error .invalidOperation

/-- Counts a bound from the end if it is negative. One before the start wraps around and lies beyond
every end. -/
def wrapped (size : Nat) (i : Int) : Nat := (if i < 0 then (size + i) % twoTo 64 else i).toNat

def everyNth {α : Type} (step : Nat) : Nat → List α → List α
  | _, [] => []
  | 0, x :: xs => x :: everyNth step (step - 1) xs
  | wait + 1, _ :: xs => everyNth step wait xs

/-- The places of a slice that steps backwards. The first and the last place are within the
sequence, and an end at zero includes it. -/
def backward (size : Nat) (start stop : Option Int) (step : Nat) : List Nat :=
  let first : Nat := match start with
    | none => size - 1
    | some i => if (size : Int) ≤ i then size - 1 else if 0 ≤ i then i.toNat else (size + i).toNat
  let last : Nat := match stop with
    | none => 0
    | some i => if i < 0 then (size + i).toNat else i.toNat
  let count := if last = 0 then (first + step) / step else (first - last + step - 1) / step
  if size = 0 then [] else (List.range count).map fun k => first - k * step

def sliceOf {α : Type} (items : List α) (start stop : Option Int) (step : Int) : List α :=
  if 0 < step then
    let first := wrapped items.length (start.getD 0)
    let last := match stop with
      | none => items.length
      | some i => wrapped items.length i
    everyNth step.toNat 0 ((items.drop first).take (last - first))
  else (backward items.length start stop step.natAbs).filterMap (items[·]?)

def slice (v start stop step : Value) : Except Fault Value := do
  let start ← bound start
  let stop ← bound stop
  let step := (← bound step).getD 1
  if step = 0 then .error .invalidOperation
  else match v with
    | undefined | nothing => .ok (list [])
    | str s | markup s => .ok (str (String.ofList (sliceOf s.toList start stop step)))
    | list items | series items => .ok (series (sliceOf items start stop step))
    | bool _ | int _ _ | float _ | map _ | loop _ _ _ | space _ _ | builtin _ | routine _ _ =>
      .error .invalidOperation

end Value

def UnaryOp.apply : UnaryOp → Value → Except Fault Value
  | negate, v => v.negate
  | opposite, v => .ok (.bool !v.isTrue)

def BinaryOp.applyPlain : BinaryOp → Value → Value → Except Fault Value
  | add, a, b => a.add b
  | subtract, a, b => a.subtract b
  | multiply, a, b => a.multiply b
  | divide, a, b => a.divide b
  | floorDivide, a, b => a.floorDivide b
  | modulo, a, b => a.modulo b
  | power, a, b => a.power b
  | join, a, b => .ok (.str (a.text ++ b.text))
  | equal, a, b => .ok (.bool (a.eq b))
  | unequal, a, b => .ok (.bool !(a.eq b))
  | less, a, b => .ok (.bool (a.cmp b == .lt))
  | lessEqual, a, b => .ok (.bool (a.cmp b != .gt))
  | greater, a, b => .ok (.bool (a.cmp b == .gt))
  | greaterEqual, a, b => .ok (.bool (a.cmp b != .lt))
  | isIn, a, b => (a.isIn b).map .bool
  | isNotIn, a, b => (a.isIn b).map fun found => .bool !found

def BinaryOp.apply (op : BinaryOp) (a b : Value) : Except Fault Value :=
  op.applyPlain a.plain b.plain

end Pipework.Template
