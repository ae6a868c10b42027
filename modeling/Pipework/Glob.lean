/-! Globs over characters: `*` any run, `?` any character, `[...]` one of a class. The pattern and the
text are gone through side by side. Where a character is not taken, the last `*` that was met takes
one character more and all after it is tried again; a `*` before that one is not thought of any
more. -/

namespace Pipework.Glob

/-- Whether a class whose items begin at place `i` lists the character, beside those of its items
that are known of already, and the place after its closing bracket. A bracket that is its first item
does not close it, and a `-` makes a range unless nothing or a `]` follows it. -/
def listed? (c : Char) (first hit : Bool) (i : Nat) : List Char → Option (Bool × Nat)
  | [] => none
  | lo :: '-' :: hi :: cs =>
    if lo = ']' && !first then some (hit, i + 1)
    else if hi = ']' then listed? c false (hit || lo == c) (i + 1) ('-' :: hi :: cs)
    else listed? c false (hit || (lo ≤ c && c ≤ hi)) (i + 3) cs
  | lo :: cs =>
    if lo = ']' && !first then some (hit, i + 1)
    else listed? c false (hit || lo == c) (i + 1) cs

def inClass? (pattern : Array Char) (start : Nat) (c : Char) : Option (Bool × Nat) :=
  let negated i cs := (listed? c true false i cs).map fun (hit, next) => (!hit, next)
  match pattern.toList.drop (start + 1) with
  | '!' :: cs => negated (start + 2) cs
  | '^' :: cs => negated (start + 2) cs
  | cs => listed? c true false (start + 1) cs

def after? (pattern : Array Char) (i : Nat) (c : Char) : Option Nat :=
  match pattern[i]? with
  | none => none
  | some '?' => some (i + 1)
  | some '[' => match inClass? pattern i c with
    | some (true, next) => some next
    | some (false, _) => none
    | none => if c = '[' then some (i + 1) else none
  | some a => if a = c then some (i + 1) else none

/-- How far a match has come: the next places in the pattern and in the text, and the place of the
last `*` with the end of what it takes. -/
structure Spot where
  inPattern : Nat
  inText : Nat
  star : Option (Nat × Nat)
  deriving DecidableEq, Repr

def runsOnly? (pattern : Array Char) (i : Nat) : Option Bool :=
  if i ≤ pattern.size then some ((pattern.toList.drop i).all (· == '*')) else none

def turn (pattern text : Array Char) (s : Spot) : Spot ⊕ Option Bool :=
  match text[s.inText]? with
  | none => .inr (runsOnly? pattern s.inPattern)
  | some c =>
    if pattern[s.inPattern]? = some '*' then
      .inl ⟨s.inPattern + 1, s.inText, some (s.inPattern, s.inText)⟩
    else match after? pattern s.inPattern c with
      | some next => .inl ⟨next, s.inText + 1, s.star⟩
      | none => match s.star with
        | some (star, taken) => .inl ⟨star + 1, taken + 1, some (star, taken + 1)⟩
        | none => .inr (some false)

def pack (n a b : Nat) : Nat := a * (n + 1) + b

/-- An upper bound on the turns to come. Each `*` is met once, between two of them the last one takes
more and more, and between two times that it does so the place in the text moves on. -/
def Spot.fuel (patternSize textSize : Nat) (s : Spot) : Nat :=
  let met := match s.star with
    | none => 0
    | some (star, _) => star + 1
  let taken := match s.star with
    | none => 0
    | some (_, taken) => taken
  pack textSize (pack textSize (patternSize - met) (textSize - taken)) (textSize - s.inText)

def search (pattern text : Array Char) : Nat → Spot → Option Bool
  | 0, _ => none
  | fuel + 1, s => match turn pattern text s with
    | .inl s => search pattern text fuel s
    | .inr answer => answer

def start : Spot := ⟨0, 0, none⟩

/-- The answer, or nothing where the search leaves the pattern or does not end. -/
def isMatch? (pattern text : List Char) : Option Bool :=
  search pattern.toArray text.toArray (start.fuel pattern.length text.length + 1) start

def isMatch (pattern text : List Char) : Bool := (isMatch? pattern text).getD false

def isSpecial (c : Char) : Bool := c == '*' || c == '?' || c == '[' || c == ']'

end Pipework.Glob
