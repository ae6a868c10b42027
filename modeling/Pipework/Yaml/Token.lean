import Pipework.Yaml.Literal
import Pipework.Yaml.Plain
import Pipework.Yaml.Quoted
import Pipework.Yaml.Tag

/-! The tokens of YAML. Collections that are laid out by indentation get a token where they start
and one where they end, and a key on one line gets a token in front, although only the colon after
it shows that it is one. -/

namespace Pipework.Yaml

inductive Token where
  | directive (d : Directive)
  | documentStart
  | documentEnd
  | textEnd
  /-- A list or a map that indentation lays out, and the end of either. -/
  | blockList
  | blockMap
  | blockEnd
  | flowList
  | flowListEnd
  | flowMap
  | flowMapEnd
  | item
  | comma
  | key
  | value
  | alias (name : String)
  | anchor (name : String)
  | tag (t : WrittenTag)
  | scalar (isPlain : Bool) (text : String)
  deriving DecidableEq, Repr

/-- Where a key may have begun. It ends on its line, after at most 1024 characters. -/
structure PossibleKey where
  /-- Whether the layout leaves no choice but that it is a key. -/
  required : Bool
  position : Nat
  index : Nat
  line : Nat
  column : Nat
  deriving DecidableEq, Repr

structure Layout where
  cursor : Cursor
  tokens : List Token
  count : Nat
  /-- The columns of the collections that indentation lays out, the innermost first. -/
  indents : List Nat
  /-- Whether a key may begin here. -/
  keyAllowed : Bool
  /-- The possible key outside of all brackets. -/
  outerKey : Option PossibleKey
  /-- The possible key inside each bracket, the innermost first. -/
  keys : List (Option PossibleKey)
  deriving DecidableEq, Repr

namespace Layout

def ofText (s : String) : Layout := ⟨Cursor.ofText s, [], 0, [], true, none, []⟩

def inFlow (s : Layout) : Bool := !s.keys.isEmpty

def least (s : Layout) : Nat :=
  match s.indents with
  | [] => 0
  | i :: _ => i + 1

def push (t : Token) (s : Layout) : Layout :=
  { s with tokens := t :: s.tokens, count := s.count + 1 }

def insert (position : Nat) (t : Token) (s : Layout) : Layout :=
  { s with tokens := s.tokens.insertIdx (s.count - position) t, count := s.count + 1 }

def mark (size : Nat) (t : Token) (s : Layout) : Layout :=
  { s with cursor := s.cursor.skipMany size }.push t

def setKey (k : Option PossibleKey) (s : Layout) : Layout :=
  match s.keys with
  | [] => { s with outerKey := k }
  | _ :: keys => { s with keys := k :: keys }

def possibleKey? (s : Layout) : Option PossibleKey :=
  match s.keys with
  | [] => s.outerKey
  | k :: _ => k

def forgetKey? (s : Layout) : Option Layout :=
  if s.possibleKey?.any (·.required) then none else some (s.setKey none)

def noteKey? (s : Layout) : Option Layout :=
  if s.keyAllowed then
    let c := s.cursor
    let required := !s.inFlow && s.indents.head? = some c.column
    s.forgetKey?.map (setKey (some ⟨required, s.count, c.index, c.line, c.column⟩))
  else some s

def expireKeys? (s : Layout) : Option Layout :=
  let isOver := fun (k : PossibleKey) =>
    k.line < s.cursor.line || k.index + 1024 < s.cursor.index
  let live := fun (k : Option PossibleKey) => k.filter fun k => !isOver k
  if (s.outerKey :: s.keys).any fun k => k.any fun k => k.required && isOver k then none
  else some { s with outerKey := live s.outerKey, keys := s.keys.map live }

def indent (column : Nat) (position : Nat) (t : Token) (s : Layout) : Layout :=
  if s.inFlow || s.indents.head?.any (column ≤ ·) then s
  else { s with indents := column :: s.indents }.insert position t

def closeBlocks (isEnded : Nat → Bool) (s : Layout) : Layout :=
  if s.inFlow then s
  else
    let ended := s.indents.takeWhile isEnded
    ended.foldl (fun (s : Layout) _ => s.push .blockEnd)
      { s with indents := s.indents.drop ended.length }

/-- Passes blanks, comments and line ends. A tab is a blank only where no key may begin. -/
def skipSpace : Nat → Layout → Layout
  | 0, s => s
  | fuel + 1, s =>
    let isSpace := fun d => d == ' ' || (d == '\t' && (s.inFlow || !s.keyAllowed))
    let c := (s.cursor.skipWhile isSpace).skipComment
    match c.takeBreak with
    | ([], _) => { s with cursor := c }
    | (_, c) => skipSpace fuel { s with cursor := c, keyAllowed := s.keyAllowed || !s.inFlow }

def skipOrderMark (s : Layout) : Layout :=
  if s.cursor.index = 0 && s.cursor.rest.head?.any (·.toNat == 0xFEFF) then
    { s with cursor := s.cursor.skip }
  else s

def atMargin? (s : Layout) : Option Layout :=
  (s.closeBlocks fun _ => true).forgetKey?.map fun s => { s with keyAllowed := false }

def textEnd? (s : Layout) : Option Layout := s.atMargin?.map (push .textEnd)

def directive? (s : Layout) : Option Layout := do
  let s ← s.atMargin?
  let (d, c) ← Directive.read? s.cursor
  some ({ s with cursor := c }.push (.directive d))

def documentMark? (t : Token) (s : Layout) : Option Layout := s.atMargin?.map (mark 3 t)

def openFlow? (t : Token) (s : Layout) : Option Layout := do
  let s ← s.noteKey?
  some ({ s with keys := none :: s.keys, keyAllowed := true }.mark 1 t)

def closeFlow? (t : Token) (s : Layout) : Option Layout := do
  let s ← s.forgetKey?
  some ({ s with keys := s.keys.drop 1, keyAllowed := false }.mark 1 t)

def comma? (s : Layout) : Option Layout := do
  let s ← s.forgetKey?
  some ({ s with keyAllowed := true }.mark 1 .comma)

def openBlock? (t : Token) (s : Layout) : Option Layout :=
  if s.inFlow then some s
  else if s.keyAllowed then some (s.indent s.cursor.column s.count t) else none

def item? (s : Layout) : Option Layout := do
  let s ← (← s.openBlock? .blockList).forgetKey?
  some ({ s with keyAllowed := true }.mark 1 .item)

def key? (s : Layout) : Option Layout := do
  let s ← (← s.openBlock? .blockMap).forgetKey?
  some ({ s with keyAllowed := !s.inFlow }.mark 1 .key)

def value? (s : Layout) : Option Layout :=
  match s.possibleKey? with
  | some k =>
    let s := (s.insert k.position .key).indent k.column k.position .blockMap
    some ({ s.setKey none with keyAllowed := false }.mark 1 .value)
  | none => do
    let s ← s.openBlock? .blockMap
    some ({ s with keyAllowed := !s.inFlow }.mark 1 .value)

def name? (s : Layout) : Option (String × Layout) := do
  let s ← s.noteKey?
  let name := s.cursor.skip.rest.takeWhile isNameChar
  let c := s.cursor.skipMany (name.length + 1)
  let isEnded := atBlank c.rest ||
    c.rest.head?.any (['?', ':', ',', ']', '}', '%', '@', Char.ofNat 96].contains ·)
  if name.isEmpty || !isEnded then none
  else some (String.ofList name, { s with cursor := c, keyAllowed := false })

def tag? (s : Layout) : Option Layout := do
  let s ← s.noteKey?
  let (t, c) ← WrittenTag.read? s.inFlow s.cursor
  some ({ s with cursor := c, keyAllowed := false }.push (.tag t))

def literal? (folded : Bool) (s : Layout) : Option Layout := do
  let s ← s.forgetKey?
  let (text, c) ← Yaml.literal? folded s.indents.head? s.cursor
  some ({ s with cursor := c, keyAllowed := true }.push (.scalar false (String.ofList text)))

def quoted? (quote : Char) (s : Layout) : Option Layout := do
  let s ← s.noteKey?
  let (text, c) ← Yaml.quoted? quote s.cursor
  some ({ s with cursor := c, keyAllowed := false }.push (.scalar false (String.ofList text)))

def plain? (s : Layout) : Option Layout := do
  let s ← s.noteKey?
  let w ← Yaml.plain? s.inFlow s.least s.cursor
  some ({ s with cursor := w.after, keyAllowed := w.broken }.push
    (.scalar true (String.ofList w.text)))

def next? (s : Layout) : Option Layout := do
  let s ← (skipSpace (s.cursor.left + 1) s.skipOrderMark).expireKeys?
  let c := s.cursor
  let s := s.closeBlocks (c.column < ·)
  let spaced := atBlank (c.rest.drop 1)
  if c.column = 0 && c.rest.head? = some '%' then s.directive?
  else if c.atDocumentStart then s.documentMark? .documentStart
  else if c.atDocumentEnd then s.documentMark? .documentEnd
  else match c.rest with
    | [] => s.textEnd?
    | '[' :: _ => s.openFlow? .flowList
    | '{' :: _ => s.openFlow? .flowMap
    | ']' :: _ => s.closeFlow? .flowListEnd
    | '}' :: _ => s.closeFlow? .flowMapEnd
    | ',' :: _ => s.comma?
    | '*' :: _ => s.name?.map fun (name, s) => s.push (.alias name)
    | '&' :: _ => s.name?.map fun (name, s) => s.push (.anchor name)
    | '!' :: _ => s.tag?
    | '\'' :: _ => s.quoted? '\''
    | '"' :: _ => s.quoted? '"'
    | d :: _ =>
      if d = '-' && spaced then s.item?
      else if d = '?' && (s.inFlow || spaced) then s.key?
      else if d = ':' && (s.inFlow || spaced) then s.value?
      else if (d = '|' || d = '>') && !s.inFlow then s.literal? (d = '>')
      else if startsPlain s.inFlow c.rest then s.plain?
      else none

def finish? : Nat → Layout → Option Layout
  | 0, _ => none
  | fuel + 1, s => do
    let s ← s.next?
    if s.tokens.head? = some .textEnd then some s else finish? fuel s

end Layout

def Token.ofText? (s : String) : Option (List Token) :=
  if s.toList.all isAllowed then
    ((Layout.ofText s).finish? (s.length + 1)).map fun s => s.tokens.reverse
  else none

end Pipework.Yaml
