import Pipework.Calendar
import Pipework.Instant
import Pipework.Text.Blank
import Pipework.Width

/-! Instants as texts such as `2024-05-06T07:08:09.5+02:00`. Reading is lenient about blanks between
the parts and about missing leading zeros; writing is in universal time, with no, three, six or nine
places after the seconds. -/

namespace Pipework.Instant

abbrev Reads (α : Type) := List Char → Option (α × List Char)

def isDigit (c : Char) : Bool := '0' ≤ c && c ≤ '9'

def ofDigits (ds : List Char) : Nat := ds.foldl (fun n c => 10 * n + (c.toNat - 48)) 0

def readDigits (most : Nat) : Reads (List Char) := fun cs =>
  let ds := (cs.take most).takeWhile isDigit
  if ds.isEmpty then none else some (ds, cs.drop ds.length)

def readField : Reads Nat := fun cs =>
  (readDigits 2 (Text.trimStart cs)).map fun (ds, r) => (ofDigits ds, r)

def readYear : Reads Int := fun cs =>
  match Text.trimStart cs with
  | '-' :: r => (readDigits r.length r).map fun (ds, r) => (-(ofDigits ds : Int), r)
  | '+' :: r => (readDigits r.length r).map fun (ds, r) => ((ofDigits ds : Int), r)
  | r => (readDigits 4 r).map fun (ds, r) => ((ofDigits ds : Int), r)

def readMark (c : Char) (cs : List Char) : Option (List Char) :=
  match Text.trimStart cs with
  | d :: r => if c = d then some r else none
  | [] => none

def readNanos : Reads Nat := fun cs =>
  match cs with
  | '.' :: r => (readDigits 9 r).map fun (ds, r) =>
    (ofDigits ds * tenTo (9 - ds.length), r.dropWhile isDigit)
  | r => some (0, r)

def readPair (most : Nat) : Reads Nat := fun cs =>
  match cs with
  | a :: b :: r =>
    if isDigit a && isDigit b && ofDigits [a, b] ≤ most then some (ofDigits [a, b], r) else none
  | _ => none

def readHoursMinutes : Reads Nat := fun cs => do
  let (hours, cs) ← readPair 23 cs
  let (minutes, cs) ← readPair 59 (cs.dropWhile fun c => c == ':' || Text.isBlank c)
  some (3600 * hours + 60 * minutes, cs)

def readOffset : Reads Int := fun cs =>
  match cs with
  | 'Z' :: r | 'z' :: r => some (0, r)
  | '+' :: r => (readHoursMinutes r).map fun (n, r) => ((n : Int), r)
  | '-' :: r | '−' :: r => (readHoursMinutes r).map fun (n, r) => (-(n : Int), r)
  | a :: b :: c :: r =>
    if (String.ofList [a, b, c]).toLower == "utc" then some (0, r) else none
  | _ => none

def readSeparator : List Char → Option (List Char)
  | 'T' :: r | 't' :: r | ' ' :: r => some r
  | _ => none

def isYear (year : Int) : Bool := -262143 ≤ year && year ≤ 262142

def inYears (t : Instant) : Bool := isYear (Date.ofDays (t.seconds / 86400)).year

def ofText? (s : String) : Option Instant := do
  let (year, cs) ← readYear s.toList
  let (month, cs) ← readField (← readMark '-' cs)
  let (day, cs) ← readField (← readMark '-' cs)
  let (hour, cs) ← readField (← readSeparator cs)
  let (minute, cs) ← readField (← readMark ':' cs)
  let (second, cs) ← readField (← readMark ':' cs)
  let (nanos, cs) ← readNanos cs
  let (offset, cs) ← readOffset (Text.trimStart cs)
  let date : Date := ⟨year, month, day⟩
  if date.isValid && isYear year && hour ≤ 23 && minute ≤ 59 && second ≤ 60
      && (Text.trimStart cs).isEmpty then
    let local_ := date.toDays * 86400 + 3600 * hour + 60 * minute + min second 59
    let t : Instant := ⟨local_ - offset, if second = 60 then nanos + 1000000000 else nanos⟩
    if t.inYears then some t else none
  else none

def padded (width n : Nat) : String :=
  let ds := Nat.toDigits 10 n
  String.ofList (List.replicate (width - ds.length) '0' ++ ds)

def yearText (year : Int) : String :=
  if 0 ≤ year && year ≤ 9999 then padded 4 year.toNat
  else (if year < 0 then "-" else "+") ++ padded 4 year.natAbs

def fractionText (nanos : Nat) : String :=
  if nanos = 0 then ""
  else if nanos % 1000000 = 0 then "." ++ padded 3 (nanos / 1000000)
  else if nanos % 1000 = 0 then "." ++ padded 6 (nanos / 1000)
  else "." ++ padded 9 nanos

def text (t : Instant) : String :=
  let date := Date.ofDays (t.seconds / 86400)
  let inDay := (t.seconds % 86400).toNat
  let leap := 1000000000 ≤ t.nanos
  let second := inDay % 60 + if leap then 1 else 0
  yearText date.year ++ "-" ++ padded 2 date.month ++ "-" ++ padded 2 date.day ++ "T"
    ++ padded 2 (inDay / 3600) ++ ":" ++ padded 2 (inDay / 60 % 60) ++ ":" ++ padded 2 second
    ++ fractionText (if leap then t.nanos - 1000000000 else t.nanos) ++ "Z"

end Pipework.Instant
