import Pipework.Decimal
import Pipework.Json.Doc
import Pipework.Text.Escaped
import Pipework.Yaml.Cursor

/-! The values that scalars of YAML mean, by their tags or else by how they are written. -/

namespace Pipework.Yaml

def based? (base : Nat) (cs : List Char) : Option Nat :=
  if cs.isEmpty then none
  else cs.foldlM (fun n c => (Text.hexValue? c).bind fun d =>
    if d < base then some (base * n + d) else none) 0

def isPaddedDigits : List Char → Bool
  | '0' :: c :: cs => (c :: cs).all isDigit
  | _ => false

def magnitude? : List Char → Option Nat
  | '0' :: 'x' :: cs => based? 16 cs
  | '0' :: 'o' :: cs => based? 8 cs
  | '0' :: 'b' :: cs => based? 2 cs
  | cs => if isPaddedDigits cs then none else based? 10 cs

def integer? (s : String) : Option Int :=
  let n : Option Int := match s.toList with
    | '-' :: cs => (magnitude? cs).map fun n => -(n : Int)
    | '+' :: cs => (magnitude? cs).map fun n => (n : Int)
    | cs => (magnitude? cs).map fun n => (n : Int)
  n.filter fun n => (Width.unsigned 128 n || Width.signed 128 n)

def ofInteger? (n : Int) : Option Json := if Width.word n then some (.int n) else none

def numeral? (negative : Bool) (cs : List Char) : Option Decimal.Numeral :=
  let digits := fun (ds : List Char) => ds.map fun c => c.toNat - 48
  let whole := cs.takeWhile isDigit
  let (fraction, rest) := match cs.dropWhile isDigit with
    | '.' :: r => (some (r.takeWhile isDigit), r.dropWhile isDigit)
    | r => (none, r)
  let exponent : Option (Option (Bool × List Nat)) := match rest with
    | [] => some none
    | e :: r =>
      let (down, ds) := match r with
        | '-' :: ds => (true, ds)
        | '+' :: ds => (false, ds)
        | ds => (false, ds)
      if (e = 'e' || e = 'E') && !ds.isEmpty && ds.all isDigit then some (some (down, digits ds))
      else none
  if whole.isEmpty && (fraction.getD []).isEmpty then none
  else exponent.map fun e => ⟨negative, digits whole, fraction.map digits, e⟩

/-- Finite numbers only; the words for the others are values too, and become null. -/
def float? (s : String) : Option Json :=
  if [".inf", ".Inf", ".INF", "+.inf", "+.Inf", "+.INF", "-.inf", "-.Inf", "-.INF", ".nan", ".NaN",
      ".NAN"].contains s then some .null
  else
    let (negative, body) := match s.toList with
      | '-' :: r => (true, r)
      | '+' :: r => (false, r)
      | r => (false, r)
    (numeral? negative body).bind fun n =>
      let x := Decimal.nearest n.toDecimal
      if x.isFinite then some (.float (if negative then -x else x).toBits) else none

def bool? (s : String) : Option Json :=
  if ["true", "True", "TRUE"].contains s then some (.bool true)
  else if ["false", "False", "FALSE"].contains s then some (.bool false)
  else none

def isNullWord (s : String) : Bool := ["~", "null", "Null", "NULL"].contains s

def resolve? (s : String) : Option Json :=
  if s.isEmpty || isNullWord s then some .null
  else match bool? s, integer? s with
    | some b, _ => some b
    | none, some n => ofInteger? n
    | none, none =>
      let digits := match s.toList with
        | '-' :: r | '+' :: r => r
        | r => r
      if isPaddedDigits digits then some (.str s) else some ((float? s).getD (.str s))

inductive TagKind where
  | bool
  | int
  | float
  | null
  /-- A kind of its own, for which there is no value. -/
  | own
  | other
  deriving DecidableEq, Repr

def TagKind.ofTag (tag : List Char) : TagKind :=
  match String.ofList tag with
  | "tag:yaml.org,2002:bool" => bool
  | "tag:yaml.org,2002:int" => int
  | "tag:yaml.org,2002:float" => float
  | "tag:yaml.org,2002:null" => null
  | _ => if tag.head? = some '!' then own else other

def TagKind.value? (s : String) : TagKind → Option Json
  | bool => bool? s
  | int => (integer? s).bind ofInteger?
  | float => float? s
  | null => if isNullWord s then some .null else none
  | own => none
  | other => some (.str s)

def wordOf (tag : Option (List Char)) (isPlain : Bool) (s : String) : Word :=
  let kind := tag.map TagKind.ofTag
  { text := s
    value := match kind with
      | some kind => kind.value? s
      | none => if isPlain then resolve? s else some (.str s)
    isNull := match kind with
      | some .null => if !isPlain then some false else if isNullWord s then some true else none
      | some _ => some false
      | none => some (isPlain && (s.isEmpty || isNullWord s))
    isBlank := isPlain && s.isEmpty }

end Pipework.Yaml
