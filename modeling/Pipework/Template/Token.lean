import Pipework.Template.Fault
import Pipework.Text.Escaped

/-! The tokens of an expression. Reading stops at the mark that ends a block, which counts only
outside of brackets. A text that is no token ends in the token `broken`, so that what stands before
it is still read first. -/

namespace Pipework.Template

inductive Symbol where
  | plus | minus | times | divide | floorDivide | modulo | power
  | tilde | pipe | dot | comma | colon | assign
  | equal | unequal | less | lessEqual | greater | greaterEqual
  | roundOpen | roundClose | squareOpen | squareClose | braceOpen | braceClose
  deriving DecidableEq, Repr

def Symbol.weight : Symbol → Int
  | .roundOpen | .squareOpen | .braceOpen => 1
  | .roundClose | .squareClose | .braceClose => -1
  | _ => 0

inductive Token where
  | word (s : String)
  | str (s : String)
  | int (n : Nat)
  | float (x : Float)
  | sym (s : Symbol)
  | broken (f : Fault)

namespace Token

def isWordStart (c : Char) : Bool :=
  ('a' ≤ c && c ≤ 'z') || ('A' ≤ c && c ≤ 'Z') || c == '_'

def isDigit (c : Char) : Bool := '0' ≤ c && c ≤ '9'

def isWordPart (c : Char) : Bool := isWordStart c || isDigit c

def symbol? : List Char → Option (Symbol × List Char)
  | '/' :: '/' :: r => some (.floorDivide, r)
  | '*' :: '*' :: r => some (.power, r)
  | '=' :: '=' :: r => some (.equal, r)
  | '!' :: '=' :: r => some (.unequal, r)
  | '>' :: '=' :: r => some (.greaterEqual, r)
  | '<' :: '=' :: r => some (.lessEqual, r)
  | '+' :: r => some (.plus, r)
  | '-' :: r => some (.minus, r)
  | '*' :: r => some (.times, r)
  | '/' :: r => some (.divide, r)
  | '%' :: r => some (.modulo, r)
  | '~' :: r => some (.tilde, r)
  | '|' :: r => some (.pipe, r)
  | '.' :: r => some (.dot, r)
  | ',' :: r => some (.comma, r)
  | ':' :: r => some (.colon, r)
  | '=' :: r => some (.assign, r)
  | '<' :: r => some (.less, r)
  | '>' :: r => some (.greater, r)
  | '(' :: r => some (.roundOpen, r)
  | ')' :: r => some (.roundClose, r)
  | '[' :: r => some (.squareOpen, r)
  | ']' :: r => some (.squareClose, r)
  | '{' :: r => some (.braceOpen, r)
  | '}' :: r => some (.braceClose, r)
  | _ => none

def closeQuote? (quote : Char) : List Char → Option (List Char × List Char)
  | [] => none
  | '\\' :: c :: cs => (closeQuote? quote cs).map fun (body, rest) => ('\\' :: c :: body, rest)
  | c :: cs =>
    if c = quote then some ([], cs)
    else (closeQuote? quote cs).map fun (body, rest) => (c :: body, rest)

def escape? : Char → Option Char
  | '"' => some '"'
  | '\\' => some '\\'
  | '/' => some '/'
  | '\'' => some '\''
  | 'b' => some '\x08'
  | 'f' => some '\x0c'
  | 'n' => some '\n'
  | 'r' => some '\r'
  | 't' => some '\t'
  | _ => none

def isOctal (c : Char) : Bool := '0' ≤ c && c ≤ '7'

def hexOf? (count : Nat) (cs : List Char) : Option Nat :=
  let written := cs.take count
  let digits := match written with
    | '+' :: ds => ds
    | ds => ds
  if written.length < count || digits.isEmpty then none else Text.hex? digits

def octalOf? (cs : List Char) : Option (Nat × Nat) :=
  let ds := (cs.take 3).takeWhile isOctal
  let n := ds.foldl (fun n c => 8 * n + (c.toNat - 48)) 0
  if n < 256 then some (n, ds.length) else none

/-- The pieces that the front of a text between quotes stands for, and how many characters that
takes. A backslash that starts no escape stands for itself. -/
def piece? : List Char → Option (List Text.Piece × Nat)
  | '\\' :: 'u' :: cs => (hexOf? 4 cs).map fun n => ([.unit n], 6)
  | '\\' :: 'x' :: cs => (hexOf? 2 cs).map fun n => ([.char (Char.ofNat n)], 4)
  | '\\' :: c :: cs =>
    if isOctal c then
      (octalOf? (c :: cs)).map fun (n, digits) => ([.char (Char.ofNat n)], digits + 1)
    else match escape? c with
      | some e => some ([.char e], 2)
      | none => some ([.char '\\', .char c], 2)
  | c :: _ => if c = '\\' then none else some ([.char c], 1)
  | [] => none

def piecesAfter? : Nat → List Char → Option (List Text.Piece)
  | _, [] => some []
  | skip + 1, _ :: cs => piecesAfter? skip cs
  | 0, c :: cs => do
    let (ps, size) ← piece? (c :: cs)
    let rest ← piecesAfter? (size - 1) cs
    some (ps ++ rest)

def unescape? (cs : List Char) : Option String :=
  ((piecesAfter? 0 cs).bind Text.ofPieces).map String.ofList

inductive Part where
  | whole
  | based (base : Nat)
  | fraction
  | exponent
  | exponentDigits
  deriving DecidableEq, Repr

def Part.next? (p : Part) (c : Char) (after : List Char) : Option Part :=
  if isDigit c then some (if p = .exponent then .exponentDigits else p)
  else if c = '_' then some p
  else match p, c with
    | .whole, '.' => if after.head?.any isDigit then some .fraction else none
    | .whole, 'e' | .whole, 'E' | .fraction, 'e' | .fraction, 'E' => some .exponent
    | .exponent, '+' | .exponent, '-' => some .exponentDigits
    | .based 16, c => if (Text.hexValue? c).isSome then some p else none
    | _, _ => none

def number (p : Part) : List Char → List Char × Part × List Char
  | [] => ([], p, [])
  | c :: cs => match p.next? c cs with
    | none => ([], p, c :: cs)
    | some q =>
      let (taken, last, rest) := number q cs
      (c :: taken, last, rest)

def based? (base : Nat) (cs : List Char) : Option Nat := do
  let n ← cs.foldlM (fun n c => do
    let d ← Text.hexValue? c
    if d < base then some (base * n + d) else none) 0
  if cs.isEmpty || !Width.unsigned 128 n then none else some n

def digits (cs : List Char) : List Nat := cs.map fun c => c.toNat - 48

def exponentOf? : List Char → Option (Option (Bool × List Nat))
  | [] => some none
  | mark :: cs =>
    let (down, ds) := match cs with
      | '-' :: ds => (true, ds)
      | '+' :: ds => (false, ds)
      | ds => (false, ds)
    if (mark = 'e' || mark = 'E') && !ds.isEmpty && ds.all isDigit then
      some (some (down, digits ds))
    else none

def decimal? (cs : List Char) : Option Float :=
  let whole := cs.takeWhile isDigit
  let (fraction, rest) := match cs.drop whole.length with
    | '.' :: r => (r.takeWhile isDigit, r.dropWhile isDigit)
    | r => ([], r)
  if whole.isEmpty && fraction.isEmpty then none
  else (exponentOf? rest).map fun e =>
    Decimal.nearest (Decimal.Numeral.toDecimal ⟨false, digits whole, some (digits fraction), e⟩)

def ofNumber (last : Part) (taken : List Char) : Token :=
  let plain := taken.filter (· != '_')
  if taken.getLast? == some '_' then .broken .badSyntax
  else
    let token : Option Token := match last with
      | .whole => (based? 10 plain).map .int
      | .based base => (based? base plain).map .int
      | .fraction | .exponent | .exponentDigits => (decimal? plain).map .float
    token.getD (.broken .badSyntax)

def numberStart : List Char → Part × List Char
  | '0' :: 'b' :: r | '0' :: 'B' :: r => (.based 2, r)
  | '0' :: 'o' :: r | '0' :: 'O' :: r => (.based 8, r)
  | '0' :: 'x' :: r | '0' :: 'X' :: r => (.based 16, r)
  | r => (.whole, r)

def next (cs : List Char) : Token × List Char :=
  match cs with
  | [] => (.broken .badSyntax, [])
  | c :: r =>
    if isWordStart c then (.word (String.ofList (cs.takeWhile isWordPart)), cs.dropWhile isWordPart)
    else if isDigit c then
      let (part, digits) := numberStart cs
      let (taken, last, rest) := number part digits
      (ofNumber last taken, rest)
    else if c = '"' || c = '\'' then
      match closeQuote? c r with
      | none => (.broken .badSyntax, [])
      | some (body, rest) => match unescape? body with
        | some s => (.str s, rest)
        | none => (.broken .badEscape, [])
    else match symbol? cs with
      | some (s, rest) => (.sym s, rest)
      | none => (.broken .badSyntax, [])

inductive Closing where
  | print
  | statement
  deriving DecidableEq, Repr

def Closing.ends? : Closing → List Char → Option (Bool × List Char)
  | .print, '}' :: '}' :: r => some (false, r)
  | .print, '-' :: '}' :: '}' :: r => some (true, r)
  | .statement, '%' :: '}' :: r => some (false, r)
  | .statement, '-' :: '%' :: '}' :: r => some (true, r)
  | .statement, '+' :: '%' :: '}' :: r => some (false, r)
  | _, _ => none

def isBroken : Token → Bool
  | broken _ => true
  | _ => false

def weight : Token → Int
  | sym s => s.weight
  | _ => 0

/-- Tokens up to the closing mark, and the text after it; `none` if the text ends before. Each token
takes at least one character, so the length of the text is enough fuel. -/
def scanFrom (closing : Closing) : Nat → Int → List Char → List Token × Option (Bool × List Char)
  | 0, _, _ => ([], none)
  | fuel + 1, depth, cs =>
    let cs := cs.dropWhile Text.isPlainBlank
    match if depth = 0 then closing.ends? cs else none with
    | some after => ([], some after)
    | none =>
      if cs.isEmpty then ([], none)
      else
        let (t, rest) := next cs
        if t.isBroken then ([t], none)
        else
          let (ts, after) := scanFrom closing fuel (depth + t.weight) rest
          (t :: ts, after)

def scan (closing : Closing) (cs : List Char) : List Token × Option (Bool × List Char) :=
  scanFrom closing (cs.length + 1) 0 cs

def ofExpression (cs : List Char) : List Token :=
  match scan .print cs with
  | (ts, none) => ts
  | (ts, some _) => ts ++ [.broken .badSyntax]

end Token

end Pipework.Template
