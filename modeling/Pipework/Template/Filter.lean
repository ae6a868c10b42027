import Pipework.Template.Args
import Pipework.Template.Operator
import Pipework.Text.Case
import Pipework.Text.Lines
import Pipework.Text.Split

/-! The filters that work on one value. -/

namespace Pipework.Template

abbrev Filter := Value → Args → Except Fault Value

namespace Filter

def alone (f : Value → Except Fault Value) : Filter := fun v args => do
  args.atMost 0
  f v

def onText (f : List Char → List Char) : Filter :=
  alone fun v => .ok (.str (String.ofList (f v.text.toList)))

def trim : Filter := fun v args => do
  let set ← args.optionalText 0
  args.atMost 1
  let cs := v.text.toList
  let inSet := match set with
    | none => Text.isBlank
    | some set => fun c => set.toList.contains c
  .ok (.str (String.ofList ((cs.dropWhile inSet).reverse.dropWhile inSet).reverse))

def replace : Filter := fun v args => do
  let old ← args.text 0
  let new ← args.text 1
  args.atMost 2
  let ps := Text.splitBy old.toList v.text.toList
  .ok (.str (String.ofList (ps.intersperse new.toList).flatten))

def length : Filter := alone fun v =>
  match v.size? with
  | some n => .ok (.count n)
  | none => .error .invalidOperation

def default : Filter := fun v args => do
  args.atMost 2
  let lax := (args.value? 1).any Value.isTrue
  if v.isUndefined || lax && !v.isTrue then .ok ((args.value? 0).getD (.str "")) else .ok v

def joined (sep : String) (items : List Value) : String := Text.join sep (items.map Value.text)

def join : Filter := fun v args => do
  let sep ← args.optionalText 0
  args.atMost 1
  .ok (.str (joined (sep.getD "") (← v.items)))

def first : Filter := alone fun v =>
  match v with
  | .undefined | .nothing => .error .invalidOperation
  | v => do .ok ((← v.items).head?.getD .undefined)

def last : Filter := alone fun v =>
  match v with
  | .str _ | .markup _ | .list _ | .series _ => do .ok ((← v.items).getLast?.getD .undefined)
  | _ => .error .invalidOperation

def reverse : Filter := alone fun v =>
  match v with
  | .undefined | .nothing => .ok v
  | .str s | .markup s => .ok (.str (String.ofList s.toList.reverse))
  | .list items | .series items => .ok (.series items.reverse)
  | v => match v.fields? with
    | some fields => .ok (.series (fields.map Prod.fst))
    | none => .error .invalidOperation

def truncated (x : Float) : Int :=
  if x.isNaN then 0
  else if x.isInf then (if x < 0 then Width.least 128 else Width.greatest 128)
  else Word.signed128.clamp (Decimal.wholePart x.toBits).1

def signOf : List Char → Bool × List Char
  | '-' :: r => (true, r)
  | '+' :: r => (false, r)
  | r => (false, r)

def intOf? (s : String) : Option Int :=
  let (negative, ds) := signOf s.toList
  if ds.isEmpty || !ds.all Token.isDigit then none
  else
    let n : Int := Decimal.ofDigits (Token.digits ds)
    let n := if negative then -n else n
    if Value.fits n then some n else none

def floatOf? (s : String) : Option Float :=
  let (negative, cs) := signOf s.toList
  let magnitude : Option Float :=
    if ["inf", "infinity"].contains (String.ofList cs).toLower then some (1.0 / 0.0)
    else if (String.ofList cs).toLower == "nan" then some (0.0 / 0.0)
    else Token.decimal? cs
  magnitude.map fun x => if negative then -x else x

def int : Filter := alone fun v =>
  match v with
  | .undefined | .nothing => .ok (.int 0 .signed64)
  | .bool b => .ok (.count (if b then 1 else 0))
  | .int n word => .ok (.int n word)
  | .float x => .ok (.int (truncated x) .signed128)
  | v => do
    let s ← Args.toText v
    match intOf? s, floatOf? s with
    | some n, _ => .ok (.int n .signed128)
    | none, some x => .ok (.int (truncated x) .signed128)
    | none, none => .error .invalidOperation

def float : Filter := alone fun v =>
  match v, v.text? with
  | .undefined, _ | .nothing, _ => .ok (.float 0)
  | _, some s => match floatOf? s with
    | some x => .ok (.float x)
    | none => .error .invalidOperation
  | v, none => match v.toFloat? false with
    | some x => .ok (.float x)
    | none => .error .invalidOperation

def abs : Filter := alone fun v =>
  match v with
  | .int n word => if 0 ≤ n then .ok (.int n word) else Value.checked n.natAbs
  | .float x => .ok (.float x.abs)
  | _ => .error .invalidOperation

def tenPower : Nat → Float → Float → Nat → Float
  | 0, result, _, _ => result
  | fuel + 1, result, base, n =>
    let result := if n % 2 = 1 then result * base else result
    if n < 2 then result else tenPower fuel result (base * base) (n / 2)

/-- Half of a unit goes away from zero. -/
def round : Filter := fun v args => do
  let places ← (args.optional? 0).mapM Args.toInt
  let places := places.getD 0
  if !Width.signed 32 places then .error .invalidOperation
  else
    args.atMost 1
    match v with
    | .int n word => .ok (.int n word)
    | .float x =>
      let power := tenPower 32 1 10 places.natAbs
      let scale := if places < 0 then 1 / power else power
      .ok (.float ((x * scale).round / scale))
    | _ => .error .invalidOperation

def sum : Filter := alone fun v => do
  (← v.items).foldlM (fun total x =>
    match x with
    | .undefined => .ok total
    | .int _ _ | .float _ => total.add x
    | _ => .error .invalidOperation) (.int 0 .signed64)

def min : Filter := alone fun v => do
  match ← v.items with
  | [] => .ok .undefined
  | x :: xs => .ok (xs.foldl (fun m x => if x.cmp m == .lt then x else m) x)

def max : Filter := alone fun v => do
  match ← v.items with
  | [] => .ok .undefined
  | x :: xs => .ok (xs.foldl (fun m x => if x.cmp m == .lt then m else x) x)

def ofTexts (ps : List (List Char)) : Value := .list (ps.map fun p => .str (String.ofList p))

def split : Filter := fun v args => do
  let cs := (← Args.toText v).toList
  let sep ← (args.optional? 0).mapM Args.toText
  let limit ← (args.optional? 1).mapM Args.toInt
  args.atMost 2
  let limit := limit.bind fun n => if 0 ≤ n then some (n.toNat + 1) else none
  .ok <| ofTexts <| match sep, limit with
    | none, none => Text.words cs
    | none, some n => Text.splitAtBlanks n [] cs
    | some sep, none => Text.splitBy sep.toList cs
    | some sep, some n => Text.rejoin sep.toList n (Text.splitBy sep.toList cs)

def lines : Filter := alone fun v => do
  .ok (.list ((Text.lines (← Args.toText v)).map .str))

def list : Filter := alone fun v => do .ok (.list (← v.items))

def string : Filter := alone fun v =>
  match v with
  | .markup s => .ok (.markup s)
  | v => .ok (.str v.text)

def bool : Filter := alone fun v => .ok (.bool v.isTrue)

def items : Filter := alone fun v =>
  match v.fields? with
  | some fields => .ok (.series (fields.map fun (k, x) => .list [k, x]))
  | none => .error .invalidOperation

def attr : Filter := fun v args => do
  let key ← args.required 0
  args.atMost 1
  v.itemOf key

def safe : Filter := alone fun v => .ok (.markup v.text)

def escape : Filter := alone fun v => .ok (.markup v.escapedText)

def indent : Filter := fun v args => do
  let width ← Args.toCount (← args.required 0)
  let first ← (args.optional? 1).mapM Args.toBool
  let blank ← (args.optional? 2).mapM Args.toBool
  args.atMost 3
  let pad := List.replicate width ' '
  let padded (line : List Char) : List Char :=
    if line.isEmpty && blank != some true then [] else pad ++ line
  let lines := match Text.splitOn '\n' (Text.chompEnding v.text.toList) with
    | line :: rest => (if first == some true then padded line else line) :: rest.map padded
    | [] => []
  .ok (.str (String.ofList (Text.chompEnding ((lines.intersperse ['\n']).flatten ++ ['\n']))))

def table : List (String × Filter) := [
  ("upper", onText Text.upper), ("lower", onText Text.lower), ("title", onText Text.title),
  ("capitalize", onText Text.capitalize), ("trim", trim), ("replace", replace),
  ("length", length), ("count", length), ("default", default), ("d", default), ("join", join),
  ("first", first), ("last", last), ("reverse", reverse), ("int", int), ("float", float),
  ("abs", abs), ("round", round), ("sum", sum), ("min", min), ("max", max), ("split", split),
  ("lines", lines), ("list", list), ("string", string), ("bool", bool), ("items", items),
  ("attr", attr), ("safe", safe), ("escape", escape), ("e", escape), ("indent", indent)]

end Filter

end Pipework.Template
