import Pipework.Text.Escaped

/-! Identifiers of 128 bits: thirty-two hexadecimal digits, which may stand in groups with hyphens
between them. -/

namespace Pipework.Identifier

def groups : List Nat := [8, 4, 4, 4, 12]

def hyphenate (sizes : List Nat) (ds : List Char) : List Char :=
  match sizes with
  | [] => []
  | [n] => ds.take n
  | n :: m :: rest => ds.take n ++ '-' :: hyphenate (m :: rest) (ds.drop n)

def inner (cs : List Char) : List Char :=
  match cs with
  | '{' :: rest => match rest.reverse with
    | '}' :: body => if body.length = 36 then body.reverse else cs
    | _ => cs
  | 'u' :: 'r' :: 'n' :: ':' :: 'u' :: 'u' :: 'i' :: 'd' :: ':' :: rest =>
    if rest.length = 36 then rest else cs
  | _ => cs

def isHexDigit (c : Char) : Bool := (Text.hexValue? c).isSome

def ofText? (s : String) : Option String :=
  let cs := s.toList
  let body := inner cs
  let ds := body.filter isHexDigit
  if ds.length = 32 && (cs == ds || body == hyphenate groups ds) then
    some (String.ofList (hyphenate groups (ds.map Char.toLower)))
  else none

end Pipework.Identifier
