import Pipework.Text.HiddenTable

/-! Quoted texts, as they stand in written lists: in double quotes, with escapes for quotes,
backslashes and characters that show nothing of their own. -/

namespace Pipework.Text

def isHidden (c : Char) : Bool :=
  if 0x20 ≤ c.toNat && c.toNat < 0x7F then false
  else hiddenRanges.any fun r => r.1 ≤ c.toNat && c.toNat ≤ r.2

def quotedChar (c : Char) : List Char :=
  match c with
  | '"' => ['\\', '"']
  | '\\' => ['\\', '\\']
  | '\n' => ['\\', 'n']
  | '\r' => ['\\', 'r']
  | '\t' => ['\\', 't']
  | '\x00' => ['\\', '0']
  | c => if isHidden c then '\\' :: 'u' :: '{' :: Nat.toDigits 16 c.toNat ++ ['}'] else [c]

def quoted (s : String) : String :=
  String.ofList ('"' :: s.toList.foldr (fun c r => quotedChar c ++ r) ['"'])

def quotedList (ss : List String) : String :=
  let rec items : List String → String
    | [] => ""
    | [s] => quoted s
    | s :: t :: rest => quoted s ++ ", " ++ items (t :: rest)
  "[" ++ items ss ++ "]"

end Pipework.Text
