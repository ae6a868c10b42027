import Pipework.Width

/-! Doubles as decimals. `Decimal.shortest` gives the decimal with the fewest digits that reads back
as the same double, and among those the nearest one. `Decimal.Layout` says how such a decimal is
written, and `Decimal.Numeral` how a written one is read. -/

namespace Pipework

structure Decimal where
  digits : Nat
  exponent : Int
  deriving DecidableEq, Repr

namespace Decimal

structure Binary where
  mantissa : Nat
  exponent : Int
  edge : Bool
  deriving DecidableEq, Repr

def binary (bits : UInt64) : Binary :=
  let fraction := (bits &&& 0xFFFFFFFFFFFFF).toNat
  let level := ((bits >>> 52) &&& 0x7FF).toNat
  if level = 0 then ⟨fraction, -1074, false⟩
  else ⟨fraction + twoTo 52, (level : Int) - 1075, fraction == 0 && level != 1⟩

def isNegative (bits : UInt64) : Bool := bits >>> 63 == 1

/-- The multiples of `10 ^ e` around a number and the interval of numbers that read as it, all in
quarters of the last place of the double. -/
structure Grid where
  low : Nat
  value : Nat
  high : Nat
  closed : Bool
  step : Nat
  deriving Repr

def grid (b : Binary) (e : Int) : Grid :=
  let q := b.exponent - 2
  let scale := twoTo q.toNat * tenTo (-e).toNat
  let value := 4 * b.mantissa
  { low := (value - if b.edge then 1 else 2) * scale
    value := value * scale
    high := (value + 2) * scale
    closed := b.mantissa % 2 == 0
    step := tenTo e.toNat * twoTo (-q).toNat }

def Grid.holds (g : Grid) (n : Nat) : Bool :=
  if g.closed then g.low ≤ n * g.step && n * g.step ≤ g.high
  else g.low < n * g.step && n * g.step < g.high

def Grid.hit? (g : Grid) : Option Nat :=
  let below := g.value / g.step
  let above := below + 1
  let down := g.value - below * g.step
  let up := above * g.step - g.value
  match g.holds below, g.holds above with
  | true, true =>
    if down < up then some below
    else if up < down then some above
    else some (if below % 2 = 0 then below else above)
  | true, false => some below
  | false, true => some above
  | false, false => none

def search (b : Binary) : Nat → Int → Decimal
  | 0, e => ⟨(grid b e).value / (grid b e).step, e⟩
  | fuel + 1, e => match (grid b e).hit? with
    | some n => ⟨n, e⟩
    | none => search b fuel (e - 1)

/-- An exponent whose power of ten exceeds the number: `0.30103` is just above the decimal logarithm
of two. -/
def roof (b : Binary) : Int :=
  Int.fdiv ((Nat.log2 b.mantissa + 1 + b.exponent) * 30103) 100000 + 1

/-- The fewest digits that read back as the double. Seventeen digits always do, so the search ends
within twenty grids. -/
def shortest (bits : UInt64) : Decimal :=
  let b := binary bits
  if b.mantissa = 0 then ⟨0, 0⟩ else search b 24 (roof b)

structure Layout where
  positional : Int → Bool
  plus : Bool

def writePositional (d : Decimal) : String :=
  let ds := (Nat.repr d.digits).toList
  let point : Int := ds.length + d.exponent
  if 0 ≤ d.exponent then
    String.ofList (ds ++ List.replicate d.exponent.toNat '0') ++ ".0"
  else if 0 < point then
    String.ofList (ds.take point.toNat) ++ "." ++ String.ofList (ds.drop point.toNat)
  else
    "0." ++ String.ofList (List.replicate (-point).toNat '0' ++ ds)

def writeScientific (plus : Bool) (d : Decimal) : String :=
  let ds := (Nat.repr d.digits).toList
  let lead : Int := ds.length + d.exponent - 1
  let tail := match ds.drop 1 with
    | [] => ""
    | rest => "." ++ String.ofList rest
  String.ofList (ds.take 1) ++ tail ++ "e" ++ (if lead < 0 then "-" else if plus then "+" else "")
    ++ Nat.repr lead.natAbs

def Layout.write (layout : Layout) (bits : UInt64) : String :=
  let d := shortest bits
  let lead : Int := (Nat.repr d.digits).length + d.exponent - 1
  (if isNegative bits then "-" else "")
    ++ if layout.positional lead then writePositional d else writeScientific layout.plus d

structure Numeral where
  negative : Bool
  whole : List Nat
  fraction : Option (List Nat)
  exponent : Option (Bool × List Nat)
  deriving DecidableEq, Repr

def ofDigits (ds : List Nat) : Nat := ds.foldl (fun n d => 10 * n + d) 0

def power (n : Nat) : Float := Float.ofScientific 1 false n

/-- The double nearest to `digits * 10 ^ exponent`. No double has more than 309 digits before the
point or 324 places after it. -/
def nearest (d : Decimal) : Float :=
  let lead : Int := (Nat.repr d.digits).length + d.exponent
  if d.digits = 0 || lead < -330 then 0
  else if 320 < lead then 1.0 / 0.0
  else Float.ofScientific d.digits (d.exponent < 0) d.exponent.natAbs

def Numeral.toDecimal (n : Numeral) : Decimal :=
  let after := n.fraction.getD []
  let shift : Int := match n.exponent with
    | none => 0
    | some (down, ds) => if down then -(ofDigits ds : Int) else ofDigits ds
  ⟨ofDigits (n.whole ++ after), shift - after.length⟩

def wholePart (bits : UInt64) : Int × Bool :=
  let b := binary bits
  let step := twoTo (-b.exponent).toNat
  let n := b.mantissa * twoTo b.exponent.toNat / step
  (if isNegative bits then -n else n, b.mantissa % step == 0)

/-- The leading digits of a number as far as they fit in 64 bits, and the power of ten that the
digits read so far have been scaled by. -/
structure Leading where
  significand : Nat
  scale : Int
  full : Bool
  deriving DecidableEq, Repr

def Leading.fits (l : Leading) (digit : Nat) : Bool :=
  Width.unsigned 64 (10 * l.significand + digit)

def Leading.whole (l : Leading) (digit : Nat) : Leading :=
  if !l.full && l.fits digit then { l with significand := 10 * l.significand + digit }
  else { l with scale := l.scale + 1, full := true }

def Leading.fraction (l : Leading) (digit : Nat) : Leading :=
  if !l.full && l.fits digit then
    { l with significand := 10 * l.significand + digit, scale := l.scale - 1 }
  else { l with full := true }

def Numeral.leading (n : Numeral) : Leading :=
  let whole := n.whole.foldl Leading.whole ⟨0, 0, false⟩
  (n.fraction.getD []).foldl Leading.fraction { whole with full := false }

/-- The significand times a power of ten, by one rounded multiplication or division. Beyond the
powers that doubles have, a positive exponent is out of range and a negative one is reached in
steps. -/
def scaled (x : Float) : Nat → Int → Option Float
  | 0, _ => some x
  | fuel + 1, e =>
    if e.natAbs ≤ 308 then
      if 0 ≤ e then
        let y := x * power e.natAbs
        if y.isInf then none else some y
      else some (x / power e.natAbs)
    else if x == 0 then some x
    else if 0 ≤ e then none
    else scaled (x / power 308) fuel (e + 308)

def Numeral.magnitude (n : Numeral) : Option Float :=
  let l := n.leading
  let x := Float.ofNat l.significand
  match n.exponent with
  | none => scaled x 4 l.scale
  | some (down, ds) =>
    let e := ofDigits ds
    if !Width.signed 32 e then
      if l.significand ≠ 0 && !down then none else some 0
    else scaled x 4 (if down then l.scale - e else l.scale + e)

def Numeral.toFloat? (n : Numeral) : Option Float :=
  n.magnitude.map fun x => if n.negative then -x else x

def Numeral.toInt? (n : Numeral) : Option Int :=
  match n.fraction, n.exponent with
  | none, none =>
    let m := ofDigits n.whole
    if n.negative then
      if m ≠ 0 && Width.signed 64 (-(m : Int)) then some (-(m : Int)) else none
    else if Width.unsigned 64 m then some m else none
  | _, _ => none

end Decimal

end Pipework
