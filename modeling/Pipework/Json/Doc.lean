import Pipework.Decimal
import Pipework.Json.Basic
import Pipework.Text.Escaped

/-! Texts as written. A document keeps repeated keys and unread numerals, because what they mean is
decided where they are read: a field nobody asks for may hold a number out of range, an unpaired
surrogate or any depth of nesting, and still the text is well formed. -/

namespace Pipework

structure Word where
  text : String
  /-- The value that it means, if it means one. -/
  value : Option Json
  /-- Whether it counts as left out where it may be; `none` if it contradicts itself there. -/
  isNull : Option Bool
  /-- Whether it was left out indeed, which also makes an empty list or object. -/
  isBlank : Bool
  deriving DecidableEq, Repr, Inhabited

/-- What a text holds. A string is `none` if it has an unpaired surrogate. A known number has been
read before. A list or object with a name of its own kind is labelled, and then it is no plain
value. What holds itself has no end, and no reader takes it. -/
inductive Doc where
  | null
  | bool (b : Bool)
  | num (n : Decimal.Numeral)
  | known (j : Json)
  | word (w : Word)
  | str (s : Option String)
  | arr (items : List Doc)
  | obj (fields : List (Option String × Doc))
  | labelled (d : Doc)
  | endless
  deriving Inhabited

namespace Doc

def isSpace (c : Char) : Bool := c == ' ' || c == '\n' || c == '\t' || c == '\r'

def skip (cs : List Char) : List Char := cs.dropWhile isSpace

def escape? : Char → Option Char
  | '"' => some '"'
  | '\\' => some '\\'
  | '/' => some '/'
  | 'b' => some '\x08'
  | 'f' => some '\x0c'
  | 'n' => some '\n'
  | 'r' => some '\r'
  | 't' => some '\t'
  | _ => none

def pieces : List Char → List Text.Piece → Option (List Text.Piece × List Char)
  | [], _ => none
  | '"' :: cs, acc => some (acc, cs)
  | '\\' :: 'u' :: a :: b :: c :: d :: cs, acc =>
    match Text.hex? [a, b, c, d] with
    | some n => pieces cs (.unit n :: acc)
    | none => none
  | '\\' :: c :: cs, acc => match escape? c with
    | some e => pieces cs (.char e :: acc)
    | none => none
  | c :: cs, acc => if c.toNat < 32 then none else pieces cs (.char c :: acc)

def string? (cs : List Char) : Option (Option String × List Char) :=
  (pieces cs []).map fun (ps, rest) => ((Text.ofPieces ps.reverse).map String.ofList, rest)

def isDigit (c : Char) : Bool := '0' ≤ c && c ≤ '9'

def digits (cs : List Char) : List Nat × List Char :=
  ((cs.takeWhile isDigit).map fun c => c.toNat - 48, cs.dropWhile isDigit)

def fraction? : List Char → Option (Option (List Nat) × List Char)
  | '.' :: cs => match digits cs with
    | ([], _) => none
    | (ds, rest) => some (some ds, rest)
  | cs => some (none, cs)

def exponentDigits? (down : Bool) (cs : List Char) :
    Option (Option (Bool × List Nat) × List Char) :=
  match digits cs with
  | ([], _) => none
  | (ds, rest) => some (some (down, ds), rest)

def exponent? : List Char → Option (Option (Bool × List Nat) × List Char)
  | c :: cs =>
    if c = 'e' || c = 'E' then
      match cs with
      | '+' :: rest => exponentDigits? false rest
      | '-' :: rest => exponentDigits? true rest
      | rest => exponentDigits? false rest
    else some (none, c :: cs)
  | [] => some (none, [])

def numeral? (cs : List Char) : Option (Decimal.Numeral × List Char) :=
  let (negative, cs) := match cs with
    | '-' :: rest => (true, rest)
    | rest => (false, rest)
  match digits cs with
  | ([], _) => none
  | (0 :: _ :: _, _) => none
  | (whole, rest) => do
    let (fraction, rest) ← fraction? rest
    let (exponent, rest) ← exponent? rest
    some (⟨negative, whole, fraction, exponent⟩, rest)

mutual
def value? : Nat → List Char → Option (Doc × List Char)
  | 0, _ => none
  | fuel + 1, cs => match skip cs with
    | 'n' :: 'u' :: 'l' :: 'l' :: rest => some (.null, rest)
    | 't' :: 'r' :: 'u' :: 'e' :: rest => some (.bool true, rest)
    | 'f' :: 'a' :: 'l' :: 's' :: 'e' :: rest => some (.bool false, rest)
    | '"' :: rest => (string? rest).map fun (s, rest) => (.str s, rest)
    | '[' :: rest => match skip rest with
      | ']' :: rest => some (.arr [], rest)
      | _ => (items? fuel rest).map fun (items, rest) => (.arr items, rest)
    | '{' :: rest => match skip rest with
      | '}' :: rest => some (.obj [], rest)
      | _ => (fields? fuel rest).map fun (fields, rest) => (.obj fields, rest)
    | rest => (numeral? rest).map fun (n, rest) => (.num n, rest)

def items? : Nat → List Char → Option (List Doc × List Char)
  | 0, _ => none
  | fuel + 1, cs => match value? fuel cs with
    | none => none
    | some (x, rest) => match skip rest with
      | ']' :: rest => some ([x], rest)
      | ',' :: rest => (items? fuel rest).map fun (xs, rest) => (x :: xs, rest)
      | _ => none

def fields? : Nat → List Char → Option (List (Option String × Doc) × List Char)
  | 0, _ => none
  | fuel + 1, cs => match skip cs with
    | '"' :: rest => match string? rest with
      | none => none
      | some (key, rest) => match skip rest with
        | ':' :: rest => match value? fuel rest with
          | none => none
          | some (x, rest) => match skip rest with
            | '}' :: rest => some ([(key, x)], rest)
            | ',' :: rest => (fields? fuel rest).map fun (xs, rest) => ((key, x) :: xs, rest)
            | _ => none
        | _ => none
    | _ => none
end

/-- The document of a whole text. Each call of the grammar but every other one reads a character, so
twice the length is enough fuel. -/
def parse? (s : String) : Option Doc :=
  let cs := s.toList
  match value? (2 * cs.length + 2) cs with
  | some (d, rest) => if (skip rest).isEmpty then some d else none
  | none => none

mutual
def ofJson : Json → Doc
  | .null => .null
  | .bool b => .bool b
  | .arr items => .arr (ofItems items)
  | .obj fields => .obj (ofFields fields)
  | .str s => .str (some s)
  | .int n => .known (.int n)
  | .float bits => .known (.float bits)
termination_by structural j => j

def ofItems : List Json → List Doc
  | [] => []
  | x :: xs => ofJson x :: ofItems xs
termination_by structural items => items

def ofFields : List (String × Json) → List (Option String × Doc)
  | [] => []
  | (k, x) :: xs => (some k, ofJson x) :: ofFields xs
termination_by structural fields => fields
end

mutual
def depth : Doc → Nat
  | .arr items => depthItems items + 1
  | .obj fields => depthFields fields + 1
  | .labelled d => depth d
  | _ => 0
termination_by structural d => d

def depthItems : List Doc → Nat
  | [] => 0
  | x :: xs => max (depth x) (depthItems xs)
termination_by structural items => items

def depthFields : List (Option String × Doc) → Nat
  | [] => 0
  | (_, x) :: xs => max (depth x) (depthFields xs)
termination_by structural fields => fields
end

def number? (n : Decimal.Numeral) : Option Json :=
  match n.toInt? with
  | some i => some (.int i)
  | none => n.toFloat?.map fun x => .float x.toBits

def toJson? : Nat → Doc → Option Json
  | _, .null => some .null
  | _, .bool b => some (.bool b)
  | _, .num n => number? n
  | _, .known j => some j
  | _, .word w => w.value
  | _, .str s => s.map .str
  | _, .labelled _ => none
  | _, .endless => none
  | 0, .arr _ => none
  | 0, .obj _ => none
  | levels + 1, .arr items => (items.mapM (toJson? levels)).map .arr
  | levels + 1, .obj fields =>
    (fields.mapM fun (field : Option String × Doc) => field.1.bind fun key =>
      (toJson? levels field.2).map fun x => (key, x)).map
        fun pairs => .obj (Keyed.ofPairs pairs)

def maxLevels : Nat := 127

end Doc

def Json.parse? (s : String) : Option Json := (Doc.parse? s).bind (Doc.toJson? Doc.maxLevels)

end Pipework
