import Pipework.Decimal
import Pipework.Json.Basic

/-! The text of a value: in one line without spaces, or with one item to a line and two spaces of
indentation. Strings escape quotes, backslashes and control characters only. -/

namespace Pipework.Json

/-- Doubles are positional from `1e-5` to below `1e16`, and always have a point or an exponent. -/
def numberLayout : Decimal.Layout := ⟨fun lead => -5 ≤ lead && lead ≤ 15, true⟩

def hexDigit (n : Nat) : Char :=
  if n < 10 then Char.ofNat (n + 48) else Char.ofNat (n + 87)

def escapeChar (c : Char) : List Char :=
  if c = '"' then ['\\', '"']
  else if c = '\\' then ['\\', '\\']
  else if c = '\n' then ['\\', 'n']
  else if c = '\r' then ['\\', 'r']
  else if c = '\t' then ['\\', 't']
  else if c = '\x08' then ['\\', 'b']
  else if c = '\x0c' then ['\\', 'f']
  else if c.toNat < 32 then
    ['\\', 'u', '0', '0', hexDigit (c.toNat / 16), hexDigit (c.toNat % 16)]
  else [c]

def quote (s : String) : String :=
  String.ofList ('"' :: s.toList.foldr (fun c r => escapeChar c ++ r) ['"'])

def writeInt (n : Int) : String :=
  if n < 0 then "-" ++ Nat.repr n.natAbs else Nat.repr n.natAbs

mutual
def compact : Json → String
  | .null => "null"
  | .bool true => "true"
  | .bool false => "false"
  | .int n => writeInt n
  | .float bits => numberLayout.write bits
  | .str s => quote s
  | .arr items => "[" ++ compactItems items ++ "]"
  | .obj fields => "\x7b" ++ compactFields fields ++ "\x7d"
termination_by structural j => j

def compactItems : List Json → String
  | [] => ""
  | [x] => compact x
  | x :: y :: rest => compact x ++ "," ++ compactItems (y :: rest)
termination_by structural items => items

def compactFields : List (String × Json) → String
  | [] => ""
  | [(k, x)] => quote k ++ ":" ++ compact x
  | (k, x) :: y :: rest => quote k ++ ":" ++ compact x ++ "," ++ compactFields (y :: rest)
termination_by structural fields => fields
end

def newline (depth : Nat) : String := String.ofList ('\n' :: List.replicate (2 * depth) ' ')

mutual
def pretty : Json → Nat → String
  | .null, _ => "null"
  | .bool true, _ => "true"
  | .bool false, _ => "false"
  | .int n, _ => writeInt n
  | .float bits, _ => numberLayout.write bits
  | .str s, _ => quote s
  | .arr [], _ => "[]"
  | .obj [], _ => "\x7b\x7d"
  | .arr (x :: xs), depth =>
    "[" ++ prettyItems (x :: xs) (depth + 1) ++ newline depth ++ "]"
  | .obj (x :: xs), depth =>
    "\x7b" ++ prettyFields (x :: xs) (depth + 1) ++ newline depth ++ "\x7d"
termination_by structural j => j

def prettyItems : List Json → Nat → String
  | [], _ => ""
  | [x], depth => newline depth ++ pretty x depth
  | x :: y :: rest, depth =>
    newline depth ++ pretty x depth ++ "," ++ prettyItems (y :: rest) depth
termination_by structural items => items

def prettyFields : List (String × Json) → Nat → String
  | [], _ => ""
  | [(k, x)], depth => newline depth ++ quote k ++ ": " ++ pretty x depth
  | (k, x) :: y :: rest, depth =>
    newline depth ++ quote k ++ ": " ++ pretty x depth ++ "," ++ prettyFields (y :: rest) depth
termination_by structural fields => fields
end

/-- How a value stands inside a longer text: a string as it is, nothing for `null`, all else as one
line of JSON. -/
def text : Json → String
  | .str s => s
  | .null => ""
  | j => compact j

@[simp] theorem text_str (s : String) : text (.str s) = s := rfl

@[simp] theorem text_null : text .null = "" := rfl

end Pipework.Json
