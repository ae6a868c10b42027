import Pipework.Text.Escaped
import Pipework.Yaml.Cursor

/-! Texts in quotes, in which line ends are folded. -/

namespace Pipework.Yaml

def escape? : Char → Option Char
  | '0' => some '\x00'
  | 'a' => some '\x07'
  | 'b' => some '\x08'
  | 't' => some '\t'
  | '\t' => some '\t'
  | 'n' => some '\n'
  | 'v' => some '\x0b'
  | 'f' => some '\x0c'
  | 'r' => some '\r'
  | 'e' => some '\x1b'
  | ' ' => some ' '
  | '"' => some '"'
  | '/' => some '/'
  | '\\' => some '\\'
  | 'N' => some (Char.ofNat 0x85)
  | '_' => some (Char.ofNat 0xA0)
  | 'L' => some (Char.ofNat 0x2028)
  | 'P' => some (Char.ofNat 0x2029)
  | _ => none

def hexSize? : Char → Option Nat
  | 'x' => some 2
  | 'u' => some 4
  | 'U' => some 8
  | _ => none

def escaped? : List Char → Option (Char × Nat)
  | [] => none
  | c :: cs => match escape? c, hexSize? c with
    | some e, _ => some (e, 1)
    | none, some size => do
      let n ← Text.hex? (cs.take size)
      if (cs.take size).length = size && n.isValidChar then some (Char.ofNat n, size + 1) else none
    | none, none => none

/-- The text up to the closing quote, and what is after it. What is taken stands in reverse. In
single quotes a quote is written twice; in double quotes a backslash starts an escape, or joins two
lines. No document starts or ends inside. -/
def quotedRest? (quote : Char) : Nat → List Char → Cursor → Option (List Char × Cursor)
  | 0, _, _ => none
  | fuel + 1, taken, c =>
    let afterGap? := fun (g : Gap) (c : Cursor) => (g.take? 0 c).bind fun (g, c) =>
      quotedRest? quote fuel (g.text.reverse ++ taken) c
    match c.rest with
    | [] => none
    | d :: r =>
      if c.atDocumentMark then none
      else if d = quote then
        if quote = '\'' && r.head? = some '\'' then
          quotedRest? quote fuel (d :: taken) (c.skipMany 2)
        else some (taken.reverse, c.skip)
      else if d = '\\' && quote ≠ '\'' then
        if !r.isEmpty && atLineEnd r then
          afterGap? { Gap.empty with broken := true } c.skip.skipBreak
        else (escaped? r).bind fun (e, size) =>
          quotedRest? quote fuel (e :: taken) (c.skipMany (size + 1))
      else if isBlank d || isBreak d then afterGap? .empty c
      else quotedRest? quote fuel (d :: taken) c.skip

def quoted? (quote : Char) (c : Cursor) : Option (List Char × Cursor) :=
  quotedRest? quote (c.left + 1) [] c.skip

end Pipework.Yaml
