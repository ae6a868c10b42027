import Pipework.Text.Escaped
import Pipework.Yaml.Cursor

/-! Tags of nodes, and the directives in front of a document. -/

namespace Pipework.Yaml

structure WrittenTag where
  handle : List Char
  suffix : List Char
  deriving DecidableEq, Repr

namespace WrittenTag

def isTagChar (isWhole : Bool) (c : Char) : Bool :=
  isNameChar c || [';', '/', '?', ':', '@', '&', '=', '+', '$', '.', '%', '!', '~', '*', '\'', '(',
    ')'].contains c || (isWhole && [',', '[', ']'].contains c)

def octet? : List Char → Option Nat
  | '%' :: a :: b :: _ => Text.hex? [a, b]
  | _ => none

def octetCount? (n : Nat) : Option Nat :=
  if n < 0x80 then some 1
  else if 0xC0 ≤ n && n < 0xE0 then some 2
  else if 0xE0 ≤ n && n < 0xF0 then some 3
  else if 0xF0 ≤ n && n < 0xF8 then some 4
  else none

def octetsAfter? : Nat → List Char → Option (List Char)
  | 0, _ => some []
  | n + 1, cs => do
    let octet ← octet? cs
    if 0x80 ≤ octet && octet < 0xC0 then
      (octetsAfter? n (cs.drop 3)).map (Char.ofNat octet :: ·)
    else none

def octets? (cs : List Char) : Option (List Char) := do
  let octet ← octet? cs
  let count ← octetCount? octet
  (octetsAfter? (count - 1) (cs.drop 3)).map (Char.ofNat octet :: ·)

def text? (isWhole : Bool) : Nat → Cursor → Option (List Char × Cursor)
  | 0, c => some ([], c)
  | fuel + 1, c => match c.rest with
    | '%' :: _ => do
      let octets ← octets? c.rest
      let (more, c) ← text? isWhole fuel (c.skipMany (3 * octets.length))
      some (octets ++ more, c)
    | d :: _ =>
      if isTagChar isWhole d then
        (text? isWhole fuel c.skip).map fun (more, c) => (d :: more, c)
      else some ([], c)
    | [] => some ([], c)

def takeText? (isWhole : Bool) (c : Cursor) : Option (List Char × Cursor) :=
  text? isWhole (c.left + 1) c

def takeSome? (isWhole : Bool) (c : Cursor) : Option (List Char × Cursor) := do
  let (text, c) ← takeText? isWhole c
  if text.isEmpty then none else some (text, c)

def handle? (c : Cursor) : Option (List Char × Cursor) :=
  match c.rest with
  | '!' :: r =>
    let name := r.takeWhile isNameChar
    let c := c.skipMany (name.length + 1)
    match c.rest with
    | '!' :: _ => some ('!' :: name ++ ['!'], c.skip)
    | _ => some ('!' :: name, c)
  | _ => none

def isClosed (handle : List Char) : Bool := 1 < handle.length && handle.getLast? = some '!'

def read? (inFlow : Bool) (c : Cursor) : Option (WrittenTag × Cursor) := do
  let (tag, c) ← match c.skip.rest with
    | '<' :: _ => do
      let (text, c) ← takeSome? true (c.skipMany 2)
      if c.rest.head? = some '>' then some (⟨[], text⟩, c.skip) else none
    | _ => do
      let (handle, c) ← handle? c
      if isClosed handle then (takeSome? false c).map fun (text, c) => (⟨handle, text⟩, c)
      else
        let (text, c) ← takeText? false c
        let suffix := handle.drop 1 ++ text
        some (if suffix.isEmpty then ⟨[], ['!']⟩ else ⟨['!'], suffix⟩, c)
  if atBlank c.rest || (inFlow && c.rest.head? = some ',') then some (tag, c) else none

end WrittenTag

inductive Directive where
  | version (major minor : Nat)
  | handle (name stem : List Char)
  deriving DecidableEq, Repr

namespace Directive

def number? (c : Cursor) : Option (Nat × Cursor) :=
  let digits := c.rest.takeWhile isDigit
  if digits.isEmpty || 9 < digits.length then none
  else some (digits.foldl (fun (n : Nat) d => 10 * n + (d.toNat - 48)) 0, c.skipMany digits.length)

def version? (c : Cursor) : Option (Directive × Cursor) := do
  let (major, c) ← number? c.skipBlanks
  if c.rest.head? ≠ some '.' then none
  else
    let (minor, c) ← number? c.skip
    some (.version major minor, c)

def handle? (c : Cursor) : Option (Directive × Cursor) := do
  let (name, c) ← WrittenTag.handle? c.skipBlanks
  if (name ≠ ['!'] && !WrittenTag.isClosed name) || !(c.rest.head?.any isBlank) then none
  else
    let (stem, c) ← WrittenTag.takeSome? true c.skipBlanks
    if atBlank c.rest then some (.handle name stem, c) else none

def read? (c : Cursor) : Option (Directive × Cursor) := do
  let name := c.skip.rest.takeWhile isNameChar
  let c := c.skip.skipMany name.length
  if !atBlank c.rest then none
  else
    let (directive, c) ← match String.ofList name with
      | "YAML" => version? c
      | "TAG" => handle? c
      | _ => none
    let c ← c.endLine?
    some (directive, c)

end Directive

end Pipework.Yaml
