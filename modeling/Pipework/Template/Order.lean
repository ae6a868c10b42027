import Pipework.Template.Value

/-! Equality and order of values. The order is first that of the kinds; two numbers are compared as
numbers whatever they are made of, texts by their characters, collections item by item. -/

namespace Pipework.Template

inductive Numbers where
  | ints (a b : Int)
  | floats (a b : Float)

namespace Value

def fits (n : Int) : Bool := Width.signed 128 n

def toInt? : Value → Option Int
  | bool b => some (if b then 1 else 0)
  | int n _ => if fits n then some n else none
  | float x =>
    if x.isFinite then
      match Decimal.wholePart x.toBits with
      | (n, true) =>
        if Width.signed 64 n then some n
        else if n = twoTo 63 then some (n - 1)
        else none
      | (_, false) => none
    else none
  | _ => none

def floatOfInt (n : Int) : Float :=
  let x := Float.ofScientific n.natAbs false 0
  if n < 0 then -x else x

/-- The double that a value is. If it has to be `exact`, the way back to the word of an integer must
lead to the same integer; what is too great for the word becomes its greatest. -/
def toFloat? (exact : Bool) : Value → Option Float
  | bool b => some (if b then 1 else 0)
  | int n word =>
    let x := floatOfInt n
    if !exact || word.clamp (Decimal.wholePart x.toBits).1 == n then some x else none
  | float x => some x
  | _ => none

def resigned (n : Int) : Int := if fits n then n else n - twoTo 128

def numbers? (exact : Bool) : Value → Value → Option Numbers
  | int a .unsigned128, int b .unsigned128 => some (.ints (resigned a) (resigned b))
  | float a, b => (toFloat? exact b).map fun b => .floats a b
  | a, float b => (toFloat? exact a).map fun a => .floats a b
  | a, b => match toInt? a, toInt? b with
    | some a, some b => some (.ints a b)
    | _, _ => none

def cmpFloats (x y : Float) : Ordering :=
  if x.isNaN then (if y.isNaN then .eq else .lt)
  else if y.isNaN then .gt
  else if x < y then .lt
  else if x == y then .eq
  else .gt

def cmpIntFloat (n : Int) (x : Float) : Ordering :=
  if x.isNaN then .gt
  else if x.isInf then (if x < 0 then .gt else .lt)
  else match Decimal.wholePart x.toBits with
    | (m, whole) => (compare n m).then (if whole then .eq else if x < 0 then .gt else .lt)

def cmpFar : Value → Value → Ordering
  | int n _, float x => cmpIntFloat n x
  | float x, int n _ => (cmpIntFloat n x).swap
  | int m _, int n _ => compare m n
  | _, _ => .eq

def cmpPlain (a b : Value) : Ordering :=
  (compare a.rank b.rank).then <|
    match a.text?, b.text? with
    | some s, some t => compare s t
    | _, _ => match numbers? true a b with
      | some (.ints m n) => compare m n
      | some (.floats x y) => cmpFloats x y
      | none => match a, b with
        | builtin f, builtin g => compare f.name g.name
        | a, b => cmpFar a b

mutual
def cmp : Value → Value → Ordering
  | list xs, b => match b with
    | list ys => cmpItems xs ys
    | b => cmpPlain (list []) b
  | series xs, b => match b with
    | series ys => cmpItems xs ys
    | b => cmpPlain (series []) b
  | map xs, b => match b.fields? with
    | some ys => cmpFields xs ys
    | none => cmpPlain (map []) b
  | loop id _ xs, b => match b, b.fields? with
    | loop other _ ys, _ => if id = other then .eq else cmpFields xs ys
    | _, some ys => cmpFields xs ys
    | b, none => cmpPlain (map []) b
  | space id xs, b => match b, b.fields? with
    | space other ys, _ => if id = other then .eq else cmpFields xs ys
    | _, some ys => cmpFields xs ys
    | b, none => cmpPlain (map []) b
  | undefined, b => cmpPlain undefined b
  | nothing, b => cmpPlain nothing b
  | bool x, b => cmpPlain (bool x) b
  | int n word, b => cmpPlain (int n word) b
  | float x, b => cmpPlain (float x) b
  | str s, b => cmpPlain (str s) b
  | markup s, b => cmpPlain (markup s) b
  | builtin f, b => cmpPlain (builtin f) b
  | routine id name, b => cmpPlain (routine id name) b
termination_by structural v => v

def cmpItems : List Value → List Value → Ordering
  | [], [] => .eq
  | [], _ :: _ => .lt
  | _ :: _, [] => .gt
  | x :: xs, y :: ys => (cmp x y).then (cmpItems xs ys)
termination_by structural items => items

def cmpFields : List (Value × Value) → List (Value × Value) → Ordering
  | [], [] => .eq
  | [], _ :: _ => .lt
  | _ :: _, [] => .gt
  | (k, x) :: xs, (l, y) :: ys => ((cmp k l).then (cmp x y)).then (cmpFields xs ys)
termination_by structural fields => fields
end

def eqPlain (a b : Value) : Bool :=
  match a, b with
  | undefined, undefined => true
  | nothing, nothing => true
  | builtin f, builtin g => f == g
  | routine id _, routine other _ => id == other
  | a, b => match a.text?, b.text? with
    | some s, some t => s == t
    | _, _ => match numbers? true a b with
      | some (.ints m n) => m == n
      | some (.floats x y) => x == y
      | none => false

mutual
def eq : Value → Value → Bool
  | list xs, b => match b with
    | list ys => eqItems xs ys
    | series ys => eqItems xs ys
    | _ => false
  | series xs, b => match b with
    | list ys => eqItems xs ys
    | series ys => eqItems xs ys
    | _ => false
  | map xs, b => match b.fields? with
    | some ys => eqFields xs ys
    | none => false
  | loop id _ xs, b => match b, b.fields? with
    | loop other _ _, _ => id == other
    | _, some ys => eqFields xs ys
    | _, none => false
  | space id xs, b => match b, b.fields? with
    | space other ys, _ => id == other || eqFields xs ys
    | _, some ys => eqFields xs ys
    | _, none => false
  | undefined, b => eqPlain undefined b
  | nothing, b => eqPlain nothing b
  | bool x, b => eqPlain (bool x) b
  | int n word, b => eqPlain (int n word) b
  | float x, b => eqPlain (float x) b
  | str s, b => eqPlain (str s) b
  | markup s, b => eqPlain (markup s) b
  | builtin f, b => eqPlain (builtin f) b
  | routine id name, b => eqPlain (routine id name) b
termination_by structural v => v

def eqItems : List Value → List Value → Bool
  | [], [] => true
  | x :: xs, y :: ys => eq x y && eqItems xs ys
  | _, _ => false
termination_by structural items => items

def eqFields : List (Value × Value) → List (Value × Value) → Bool
  | [], [] => true
  | (k, x) :: xs, (l, y) :: ys => cmp k l == .eq && eq x y && eqFields xs ys
  | _, _ => false
termination_by structural fields => fields
end

def lookup (key : Value) : List (Value × Value) → Option Value
  | [] => none
  | (k, x) :: rest => if cmp key k == .eq then some x else lookup key rest

def put (key x : Value) : List (Value × Value) → List (Value × Value)
  | [] => [(key, x)]
  | (k, y) :: rest => match cmp key k with
    | .lt => (key, x) :: (k, y) :: rest
    | .eq => (k, x) :: rest
    | .gt => (k, y) :: put key x rest

def putAll (pairs fields : List (Value × Value)) : List (Value × Value) :=
  pairs.foldl (fun fields p => put p.1 p.2 fields) fields

def ofPairs (pairs : List (Value × Value)) : Value := map (putAll pairs [])

def sort (before : Value → Value → Ordering) (items : List Value) : List Value :=
  items.mergeSort fun a b => before a b != .gt

end Value

end Pipework.Template
