/-! Where a reader of YAML stands in its text, and the classes of characters that it tells apart. -/

namespace Pipework.Yaml

def isDigit (c : Char) : Bool := '0' ≤ c && c ≤ '9'

def isNameChar (c : Char) : Bool := c.isAlphanum || c == '_' || c == '-'

def isBlank (c : Char) : Bool := c == ' ' || c == '\t'

def isBreak (c : Char) : Bool :=
  c == '\n' || c == '\r' || c.toNat == 0x85 || c.toNat == 0x2028 || c.toNat == 0x2029

def isAllowed (c : Char) : Bool :=
  let n := c.toNat
  n == 9 || n == 10 || n == 13 || (0x20 ≤ n && n ≤ 0x7E) || n == 0x85
    || (0xA0 ≤ n && n ≤ 0xFFFD) || 0x10000 ≤ n

def isFlowMark (c : Char) : Bool := [',', '[', ']', '{', '}'].contains c

def atLineEnd : List Char → Bool
  | [] => true
  | c :: _ => isBreak c

def atBlank : List Char → Bool
  | [] => true
  | c :: _ => isBlank c || isBreak c

/-- The text that is left, and how many characters there are in all, and how many characters, lines
and characters of this line are behind. -/
structure Cursor where
  rest : List Char
  size : Nat
  index : Nat
  line : Nat
  column : Nat
  deriving DecidableEq, Repr

namespace Cursor

def ofText (s : String) : Cursor := ⟨s.toList, s.length, 0, 0, 0⟩

def left (c : Cursor) : Nat := c.size - c.index

def skip (c : Cursor) : Cursor :=
  match c.rest with
  | [] => c
  | _ :: r => ⟨r, c.size, c.index + 1, c.line, c.column + 1⟩

def skipMany : Nat → Cursor → Cursor
  | 0, c => c
  | n + 1, c => skipMany n c.skip

def skipWhile (p : Char → Bool) (c : Cursor) : Cursor := skipMany (c.rest.takeWhile p).length c

def skipBlanks (c : Cursor) : Cursor := c.skipWhile isBlank

/-- Passes a line end, if there is one, and tells what it stands for: separators stay as they are,
and all others are line feeds. -/
def takeBreak (c : Cursor) : List Char × Cursor :=
  match c.rest with
  | '\r' :: '\n' :: r => (['\n'], ⟨r, c.size, c.index + 2, c.line + 1, 0⟩)
  | d :: r =>
    if isBreak d then
      let kept := if d.toNat = 0x2028 || d.toNat = 0x2029 then d else '\n'
      ([kept], ⟨r, c.size, c.index + 1, c.line + 1, 0⟩)
    else ([], c)
  | [] => ([], c)

def skipBreak (c : Cursor) : Cursor := c.takeBreak.2

def skipComment (c : Cursor) : Cursor :=
  match c.rest with
  | '#' :: _ => c.skipWhile fun d => !isBreak d
  | _ => c

def endLine? (c : Cursor) : Option Cursor :=
  let c := c.skipBlanks.skipComment
  if atLineEnd c.rest then some c.skipBreak else none

def startsWith (mark : List Char) (c : Cursor) : Bool :=
  c.column = 0 && mark.isPrefixOf c.rest && atBlank (c.rest.drop mark.length)

def atDocumentStart (c : Cursor) : Bool := c.startsWith ['-', '-', '-']

def atDocumentEnd (c : Cursor) : Bool := c.startsWith ['.', '.', '.']

def atDocumentMark (c : Cursor) : Bool := c.atDocumentStart || c.atDocumentEnd

end Cursor

structure Gap where
  /-- The blanks before the first line end. -/
  blanks : List Char
  broken : Bool
  first : List Char
  /-- The line ends after the first. -/
  more : List Char
  deriving DecidableEq, Repr

namespace Gap

def empty : Gap := ⟨[], false, [], []⟩

/-- What a gap counts for: its blanks if it is on one line. Else they go, and a single line feed
becomes a space, while of several the first goes. -/
def text (g : Gap) : List Char :=
  if !g.broken then g.blanks
  else if g.first.head? = some '\n' then (if g.more.isEmpty then [' '] else g.more)
  else g.first ++ g.more

def extend? (least : Nat) : Nat → Gap → Cursor → Option (Gap × Cursor)
  | 0, g, c => some (g, c)
  | fuel + 1, g, c => match c.rest with
    | [] => some (g, c)
    | d :: _ =>
      if isBreak d then
        let (ends, c) := c.takeBreak
        if g.broken then extend? least fuel { g with more := g.more ++ ends } c
        else extend? least fuel { g with broken := true, first := ends } c
      else if !isBlank d then some (g, c)
      else if !g.broken then extend? least fuel { g with blanks := g.blanks ++ [d] } c.skip
      else if d = '\t' && c.column < least then none
      else extend? least fuel g c.skip

def take? (least : Nat) (g : Gap) (c : Cursor) : Option (Gap × Cursor) :=
  extend? least (c.rest.takeWhile fun d => isBlank d || isBreak d).length g c

end Gap

end Pipework.Yaml
