import Pipework.Yaml.Cursor

/-! Scalars whose lines are kept or folded, which are laid out by indentation below their header. -/

namespace Pipework.Yaml

inductive Chomp where
  | strip
  | clip
  | keep
  deriving DecidableEq, Repr

structure LiteralHeader where
  chomp : Chomp
  /-- How much further than its parent the text is indented, if that is said. -/
  increment : Option Nat
  deriving DecidableEq, Repr

namespace LiteralHeader

def chomp? : List Char → Option Chomp
  | '+' :: _ => some .keep
  | '-' :: _ => some .strip
  | _ => none

def increment? : List Char → Option (Option Nat)
  | d :: _ => if d = '0' then none else some (if isDigit d then some (d.toNat - 48) else none)
  | [] => some none

def read? (c : Cursor) : Option (LiteralHeader × Cursor) :=
  match chomp? c.rest with
  | some chomp => do
    let c := c.skip
    let increment ← increment? c.rest
    some (⟨chomp, increment⟩, if increment.isSome then c.skip else c)
  | none => do
    match ← increment? c.rest with
    | none => some (⟨.clip, none⟩, c)
    | some n =>
      let c := c.skip
      match chomp? c.rest with
      | some chomp => some (⟨chomp, some n⟩, c.skip)
      | none => some (⟨.clip, some n⟩, c)

end LiteralHeader

/-- Passes empty lines and the indentation of the next line, as far as the text is indented if that
is known, and tells the line ends and the widest indentation. No tab stands in indentation. -/
def emptyLines? (indent : Option Nat) :
    Nat → List Char → Nat → Cursor → Option (List Char × Nat × Cursor)
  | 0, ends, widest, c => some (ends, widest, c)
  | fuel + 1, ends, widest, c =>
    let room := c.rest.takeWhile (· == ' ')
    let wanted := match indent with
      | some n => min room.length (n - c.column)
      | none => room.length
    let c := c.skipMany wanted
    let widest := max widest c.column
    let isInside := match indent with
      | some n => c.column < n
      | none => true
    if isInside && c.rest.head? = some '\t' then none
    else
      match c.takeBreak with
      | ([], _) => some (ends, widest, c)
      | (end_, next) => emptyLines? indent fuel (ends ++ end_) widest next

structure LiteralText where
  taken : List Char
  first : List Char
  more : List Char
  /-- Whether the last line began with a blank. -/
  indented : Bool

/-- The next line. Folding joins two lines neither of which begins with a blank by a space, unless
empty lines stand between them. -/
def LiteralText.addLine (folded : Bool) (t : LiteralText) (line first : List Char) : LiteralText :=
  let indented := line.head?.any isBlank
  let joint :=
    if folded && t.first.head? = some '\n' && !t.indented && !indented then
      if t.more.isEmpty then [' '] else t.more
    else t.first ++ t.more
  ⟨line.reverse ++ (joint.reverse ++ t.taken), first, [], indented⟩

def literalLines? (folded : Bool) (indent : Nat) :
    Nat → LiteralText → Cursor → Option (LiteralText × Cursor)
  | 0, t, c => some (t, c)
  | fuel + 1, t, c =>
    if c.column ≠ indent || c.rest.isEmpty then some (t, c)
    else do
      let line := c.rest.takeWhile fun d => !isBreak d
      let (first, c) := (c.skipMany line.length).takeBreak
      let t := t.addLine folded line first
      let (more, _, c) ← emptyLines? (some indent) (fuel + 1) [] 0 c
      literalLines? folded indent fuel { t with more } c

def LiteralText.chomped (t : LiteralText) : Chomp → List Char
  | .strip => t.taken.reverse
  | .clip => t.taken.reverse ++ t.first
  | .keep => t.taken.reverse ++ t.first ++ t.more

/-- The text below a header, inside a collection that is indented so far if there is one. The first
line that is not empty says how far the text is indented, if the header does not. -/
def literal? (folded : Bool) (parent : Option Nat) (c : Cursor) : Option (List Char × Cursor) := do
  let (header, c) ← LiteralHeader.read? c.skip
  let c ← c.endLine?
  let given := header.increment.map (parent.getD 0 + ·)
  let (more, widest, c) ← emptyLines? given (c.left + 1) [] 0 c
  let least := match parent with
    | some n => n + 1
    | none => 1
  let indent := given.getD (max widest least)
  let (t, c) ← literalLines? folded indent (c.left + 1) ⟨[], [], more, false⟩ c
  some (t.chomped header.chomp, c)

end Pipework.Yaml
