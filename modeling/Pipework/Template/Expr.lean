import Pipework.Template.Token
import Pipework.Template.Value

/-! Expressions of templates and how they are read from tokens. From loose to tight: the choice with
`if`, then `or`, `and`, `not`, comparisons and `in`, sums, `~`, products, powers, and an operand
with what follows it. Comparisons form chains, other operators of one level associate to the
left. -/

namespace Pipework.Template

inductive UnaryOp where
  | negate
  | opposite
  deriving DecidableEq, Repr

inductive BinaryOp where
  | add | subtract | multiply | divide | floorDivide | modulo | power | join
  | equal | unequal | less | lessEqual | greater | greaterEqual
  | isIn | isNotIn
  deriving DecidableEq, Repr

inductive Passing where
  | place
  | items
  | name (key : String)
  | fields
  deriving DecidableEq, Repr

/-- A part of a slice that is left out is the literal `nothing`, and a choice without an alternative
ends in the literal `undefined`. A chain holds if each of its comparisons of neighbours does. -/
inductive Expr where
  | literal (v : Value)
  | name (s : String)
  | list (items : List Expr)
  | map (fields : List (Expr × Expr))
  | unary (op : UnaryOp) (e : Expr)
  | binary (op : BinaryOp) (a b : Expr)
  | chain (first : Expr) (rest : List (BinaryOp × Expr))
  | both (a b : Expr)
  | either (a b : Expr)
  | choose (yes condition no : Expr)
  | field (e : Expr) (name : String)
  | item (e key : Expr)
  | slice (e start stop step : Expr)
  | filter (name : String) (e : Expr) (args : List (Passing × Expr))
  | test (name : String) (e : Expr) (args : List (Passing × Expr))
  | call (f : Expr) (args : List (Passing × Expr))
  deriving Inhabited

abbrev Reads (α : Type) := List Token → Except Fault (α × List Token)

namespace Reads

def unexpected : List Token → Fault
  | .broken f :: _ => f
  | _ => .badSyntax

def symbol (s : Symbol) : List Token → Except Fault (List Token)
  | .sym t :: r => if s = t then .ok r else .error .badSyntax
  | ts => .error (unexpected ts)

def word (w : String) : List Token → Except Fault (List Token)
  | .word v :: r => if w = v then .ok r else .error .badSyntax
  | ts => .error (unexpected ts)

def anyWord : Reads String
  | .word w :: r => .ok (w, r)
  | ts => .error (unexpected ts)

def finish : List Token → Except Fault Unit
  | [] => .ok ()
  | ts => .error (unexpected ts)

def startsWith (s : Symbol) : List Token → Bool
  | .sym t :: _ => s = t
  | _ => false

def startsWithWord (w : String) : List Token → Bool
  | .word v :: _ => w = v
  | _ => false

end Reads

namespace Expr

def wordLiteral? : String → Option Value
  | "true" | "True" => some (.bool true)
  | "false" | "False" => some (.bool false)
  | "none" | "None" => some .nothing
  | _ => none

inductive Level where
  | disjunction | conjunction | sum | joint | product | power
  deriving DecidableEq, Repr

def Level.operator? : Level → Token → Option (Expr → Expr → Expr)
  | disjunction, .word "or" => some either
  | conjunction, .word "and" => some both
  | sum, .sym .plus => some (binary .add)
  | sum, .sym .minus => some (binary .subtract)
  | joint, .sym .tilde => some (binary .join)
  | product, .sym .times => some (binary .multiply)
  | product, .sym .divide => some (binary .divide)
  | product, .sym .floorDivide => some (binary .floorDivide)
  | product, .sym .modulo => some (binary .modulo)
  | power, .sym .power => some (binary .power)
  | _, _ => none

/-- The comparison at the front and the tokens after it. The word `not` in front of `in` is one
operator with it, and cannot stand there otherwise. -/
def comparisonAt : List Token → Except Fault (Option (BinaryOp × List Token))
  | .word "in" :: ts => .ok (some (.isIn, ts))
  | .word "not" :: ts => (Reads.word "in" ts).map fun ts => some (.isNotIn, ts)
  | .sym .equal :: ts => .ok (some (.equal, ts))
  | .sym .unequal :: ts => .ok (some (.unequal, ts))
  | .sym .less :: ts => .ok (some (.less, ts))
  | .sym .lessEqual :: ts => .ok (some (.lessEqual, ts))
  | .sym .greater :: ts => .ok (some (.greater, ts))
  | .sym .greaterEqual :: ts => .ok (some (.greaterEqual, ts))
  | _ => .ok none

def compared (e : Expr) : List (BinaryOp × Expr) → Expr
  | [] => e
  | [(op, b)] => binary op e b
  | rest => chain e rest

def adjacent : String → List Token → String × List Token
  | s, .str t :: ts => adjacent (s ++ t) ts
  | s, ts => (s, ts)

def startsTestArgument : List Token → Bool
  | .word w :: _ => w != "and" && w != "or" && w != "else" && w != "is"
  | .str _ :: _ | .int _ :: _ | .float _ :: _ => true
  | .sym s :: _ => [Symbol.plus, .minus, .squareOpen, .braceOpen].contains s
  | _ => false

/-! Readers of the parts of an expression. `inner` reads the expressions that a part has inside, and
the number is fuel: each step of these loops takes at least one token. -/

def readItems (inner : Reads Expr) (closing : Symbol) : Nat → Reads (List Expr)
  | 0, _ => .error .badSyntax
  | fuel + 1, ts =>
    if Reads.startsWith closing ts then .ok ([], ts.drop 1)
    else do
      let (e, ts) ← inner ts
      if Reads.startsWith closing ts then .ok ([e], ts.drop 1)
      else
        let ts ← Reads.symbol .comma ts
        let (es, ts) ← readItems inner closing fuel ts
        .ok (e :: es, ts)

def readFields (inner : Reads Expr) : Nat → Reads (List (Expr × Expr))
  | 0, _ => .error .badSyntax
  | fuel + 1, ts =>
    if Reads.startsWith .braceClose ts then .ok ([], ts.drop 1)
    else do
      let (key, ts) ← inner ts
      let ts ← Reads.symbol .colon ts
      let (e, ts) ← inner ts
      if Reads.startsWith .braceClose ts then .ok ([(key, e)], ts.drop 1)
      else
        let ts ← Reads.symbol .comma ts
        let (fields, ts) ← readFields inner fuel ts
        .ok ((key, e) :: fields, ts)

/-- One argument; the flag says that one with a name or all fields of a value have come, after which
none stands at its place. -/
def readArg (inner : Reads Expr) (named : Bool) : Reads (Passing × Expr)
  | .sym .power :: ts => (inner ts).map fun (e, ts) => ((.fields, e), ts)
  | .sym .times :: ts => (inner ts).map fun (e, ts) => ((.items, e), ts)
  | ts => do
    let (e, ts) ← inner ts
    match e, ts with
    | .name key, .sym .assign :: ts => do
      let (x, ts) ← inner ts
      .ok ((.name key, x), ts)
    | e, ts => if named then .error .badSyntax else .ok ((.place, e), ts)

def readArgs (inner : Reads Expr) : Nat → Bool → Reads (List (Passing × Expr))
  | 0, _, _ => .error .badSyntax
  | fuel + 1, named, ts =>
    if Reads.startsWith .roundClose ts then .ok ([], ts.drop 1)
    else do
      let (arg, ts) ← readArg inner named ts
      if Reads.startsWith .roundClose ts then .ok ([arg], ts.drop 1)
      else
        let ts ← Reads.symbol .comma ts
        let named := named || arg.1 != .place && arg.1 != .items
        let (args, ts) ← readArgs inner fuel named ts
        .ok (arg :: args, ts)

def readCall (inner : Reads Expr) : Reads (Option (List (Passing × Expr)))
  | .sym .roundOpen :: ts => do
    let (args, ts) ← readArgs inner (ts.length + 1) false ts
    .ok (some args, ts)
  | ts => .ok (none, ts)

def readPart (inner : Reads Expr) : Reads Expr := fun ts =>
  if Reads.startsWith .colon ts || Reads.startsWith .squareClose ts then
    .ok (literal .nothing, ts)
  else inner ts

def readSubscript (inner : Reads Expr) (e : Expr) : Reads Expr := fun ts =>
  if Reads.startsWith .squareClose ts then .error .badSyntax
  else do
    let (start, ts) ← readPart inner ts
    match ts with
    | .sym .colon :: ts => do
      let (stop, ts) ← readPart inner ts
      let (step, ts) ← match ts with
        | .sym .colon :: ts => readPart inner ts
        | ts => .ok (literal .nothing, ts)
      let ts ← Reads.symbol .squareClose ts
      .ok (slice e start stop step, ts)
    | ts => do
      let ts ← Reads.symbol .squareClose ts
      .ok (item e start, ts)

def readPostfix (inner : Reads Expr) : Nat → Expr → Reads Expr
  | 0, _, _ => .error .badSyntax
  | fuel + 1, e, ts =>
    match ts with
    | .sym .dot :: .int n :: ts =>
      if Width.unsigned 64 n then readPostfix inner fuel (item e (literal (.count n))) ts
      else .error .badSyntax
    | .sym .dot :: ts => do
      let (w, ts) ← Reads.anyWord ts
      readPostfix inner fuel (field e w) ts
    | .sym .squareOpen :: ts => do
      let (e, ts) ← readSubscript inner e ts
      readPostfix inner fuel e ts
    | ts => do
      match ← readCall inner ts with
      | (some args, ts) => readPostfix inner fuel (call e args) ts
      | (none, ts) => .ok (e, ts)

def readPrimary (inner : Reads Expr) : Reads Expr
  | .word w :: ts => .ok (((wordLiteral? w).map literal).getD (name w), ts)
  | .str s :: ts =>
    let (s, ts) := adjacent s ts
    .ok (literal (.str s), ts)
  | .int n :: ts => .ok (literal (.int n (.ofWritten n)), ts)
  | .float x :: ts => .ok (literal (.float x), ts)
  | .sym .roundOpen :: ts =>
    if Reads.startsWith .roundClose ts then .ok (list [], ts.drop 1)
    else do
      let (e, ts) ← inner ts
      match ts with
      | .sym .comma :: ts => do
        let (es, ts) ← readItems inner .roundClose (ts.length + 1) ts
        .ok (list (e :: es), ts)
      | ts => do
        let ts ← Reads.symbol .roundClose ts
        .ok (e, ts)
  | .sym .squareOpen :: ts => do
    let (es, ts) ← readItems inner .squareClose (ts.length + 1) ts
    .ok (list es, ts)
  | .sym .braceOpen :: ts => do
    let (fields, ts) ← readFields inner (ts.length + 1) ts
    .ok (map fields, ts)
  | ts => .error (Reads.unexpected ts)

def readSigned (primary : Reads Expr) : Reads Expr
  | .sym .minus :: ts => do
    let (e, ts) ← readSigned primary ts
    .ok (unary .negate e, ts)
  | ts => primary ts

def readTest (inner primary : Reads Expr) : Reads (String × List (Passing × Expr) × Bool) :=
  fun ts => do
    let opposite := Reads.startsWithWord "not" ts
    let (w, ts) ← Reads.anyWord (if opposite then ts.drop 1 else ts)
    match ← readCall inner ts with
    | (some args, ts) => .ok ((w, args, opposite), ts)
    | (none, ts) =>
      if startsTestArgument ts then do
        let (e, ts) ← readSigned primary ts
        let (e, ts) ← readPostfix inner (ts.length + 1) e ts
        .ok ((w, [(.place, e)], opposite), ts)
      else .ok ((w, [], opposite), ts)

def readFilters (inner primary : Reads Expr) : Nat → Expr → Reads Expr
  | 0, _, _ => .error .badSyntax
  | fuel + 1, e, ts =>
    match ts with
    | .sym .pipe :: ts => do
      let (w, ts) ← Reads.anyWord ts
      let (args, ts) ← readCall inner ts
      readFilters inner primary fuel (filter w e (args.getD [])) ts
    | .word "is" :: ts => do
      let ((w, args, opposite), ts) ← readTest inner primary ts
      let e := test w e args
      readFilters inner primary fuel (if opposite then unary .opposite e else e) ts
    | ts => .ok (e, ts)

def readOperand (inner primary : Reads Expr) : Reads Expr := fun ts => do
  let (e, ts) ← readSigned primary ts
  let (e, ts) ← readPostfix inner (ts.length + 1) e ts
  readFilters inner primary (ts.length + 1) e ts

def readRest (tighter : Reads Expr) (level : Level) : Nat → Expr → Reads Expr
  | 0, _, _ => .error .badSyntax
  | fuel + 1, left, ts =>
    match ts.head?.bind level.operator? with
    | none => .ok (left, ts)
    | some make => do
      let (right, ts) ← tighter (ts.drop 1)
      readRest tighter level fuel (make left right) ts

def readLevel (level : Level) (tighter : Reads Expr) : Reads Expr := fun ts => do
  let (e, ts) ← tighter ts
  readRest tighter level (ts.length + 1) e ts

def readComparisons (tighter : Reads Expr) : Nat → Reads (List (BinaryOp × Expr))
  | 0, _ => .error .badSyntax
  | fuel + 1, ts => do
    match ← comparisonAt ts with
    | none => .ok ([], ts)
    | some (op, ts) =>
      let (e, ts) ← tighter ts
      let (rest, ts) ← readComparisons tighter fuel ts
      .ok ((op, e) :: rest, ts)

def readCompared (tighter : Reads Expr) : Reads Expr := fun ts => do
  let (e, ts) ← tighter ts
  let (rest, ts) ← readComparisons tighter (ts.length + 1) ts
  .ok (compared e rest, ts)

def readNegated (tighter : Reads Expr) : Reads Expr
  | .word "not" :: ts => do
    let (e, ts) ← readNegated tighter ts
    .ok (unary .opposite e, ts)
  | ts => tighter ts

def readSimple (inner primary : Reads Expr) : Reads Expr :=
  readLevel .disjunction <| readLevel .conjunction <| readNegated <| readCompared <|
    readLevel .sum <| readLevel .joint <| readLevel .product <| readLevel .power <|
      readOperand inner primary

/-- The choices after a value. An alternative takes all choices after it. -/
def readChoices (simple : Reads Expr) : Nat → Expr → Reads Expr
  | 0, _, _ => .error .badSyntax
  | fuel + 1, e, ts =>
    match ts with
    | .word "if" :: ts => do
      let (condition, ts) ← simple ts
      match ts with
      | .word "else" :: ts => do
        let (other, ts) ← simple ts
        let (other, ts) ← readChoices simple fuel other ts
        .ok (choose e condition other, ts)
      | ts => readChoices simple fuel (choose e condition (literal .undefined)) ts
    | ts => .ok (e, ts)

def depthLimit : Nat := 150

def readFirst : Nat → Reads Expr
  | 0, _ | 1, _ => .error .badSyntax
  | room + 2, ts => do
    let simple := readSimple (readFirst (room + 1)) (readPrimary (readFirst room))
    let (e, ts) ← simple ts
    readChoices simple (ts.length + 1) e ts

def readPlain (room : Nat) : Reads Expr := fun ts =>
  if room = 0 then .error .badSyntax
  else readSimple (readFirst room) (readPrimary (readFirst (room - 1))) ts

def ofTokens (room : Nat) (ts : List Token) : Except Fault Expr := do
  let (e, ts) ← readFirst room ts
  Reads.finish ts
  .ok e

def readRow (room : Nat) : Nat → List Token → Except Fault (List Expr)
  | 0, _ => .error .badSyntax
  | _ + 1, [] => .ok []
  | fuel + 1, ts => do
    let (e, ts) ← readFirst room ts
    if ts.isEmpty then .ok [e]
    else
      let ts ← Reads.symbol .comma ts
      .ok (e :: (← readRow room fuel ts))

def ofRow (room : Nat) (ts : List Token) : Except Fault Expr := do
  let (e, ts) ← readFirst room ts
  if ts.isEmpty then .ok e
  else
    let ts ← Reads.symbol .comma ts
    .ok (list (e :: (← readRow room (ts.length + 1) ts)))

def ofText (cs : List Char) : Except Fault Expr := ofTokens depthLimit (Token.ofExpression cs)

end Expr

end Pipework.Template
