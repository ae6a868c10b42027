import Pipework.Template.Expr
import Pipework.Template.Segment

/-! Statements of templates and how they are read from segments. -/

namespace Pipework.Template

inductive Target where
  | name (s : String)
  | field (e : Expr) (name : String)
  | tuple (targets : List Target)
  deriving Inhabited

structure Parameter where
  name : String
  fallback : Option Expr

abbrev Filters := List (String × List (Passing × Expr))

inductive Statement where
  | text (s : String)
  | print (e : Expr)
  | choose (condition : Expr) (yes no : List Statement)
  | loop (target : Target) (source : Expr) (only : Option Expr) (again : Bool)
      (body otherwise : List Statement)
  | set (target : Target) (e : Expr)
  | capture (target : Target) (filters : Filters) (body : List Statement)
  | scope (targets : List (Target × Expr)) (body : List Statement)
  | filtered (filters : Filters) (body : List Statement)
  | escaped (mode : Expr) (body : List Statement)
  | ignore (e : Expr)
  | insert (e : Expr) (optional : Bool)
  | extend (e : Expr)
  | take (e : Expr) (target : Target)
  | takeNames (e : Expr) (names : List String)
  | block (name : String) (body : List Statement)
  | define (name : String) (parameters : List Parameter) (asks : Bool) (body : List Statement)
  | callWith (f : Expr) (args : List (Passing × Expr)) (parameters : List Parameter)
      (asks : Bool) (body : List Statement)
  deriving Inhabited

namespace Target

def reserved : List String := ["true", "True", "false", "False", "none", "None", "loop", "self"]

def readName : Reads String := fun ts => do
  let (w, ts) ← Reads.anyWord ts
  if reserved.contains w then .error .badSyntax else .ok (w, ts)

def readFields : Nat → Target → Expr → Reads Target
  | 0, t, _, ts => .ok (t, ts)
  | fuel + 1, t, e, ts =>
    if Reads.startsWith .dot ts then do
      let (w, ts) ← Reads.anyWord (ts.drop 1)
      readFields fuel (field e w) (.field e w) ts
    else .ok (t, ts)

def readOne (dotted : Bool) : Reads Target := fun ts => do
  let (w, ts) ← readName ts
  readFields (if dotted then ts.length else 0) (name w) (.name w) ts

def endsHere (ts : List Token) : Bool :=
  ts.isEmpty || Reads.startsWith .roundClose ts || Reads.startsWithWord "in" ts

mutual
def read (dotted : Bool) : Nat → Reads Target
  | 0, _ => .error .badSyntax
  | fuel + 1, ts => do
    let (targets, ts) ← readMany dotted fuel ts
    match targets with
    | ([t], false) => .ok (t, ts)
    | (targets, _) => .ok (tuple targets, ts)

def readMany (dotted : Bool) : Nat → Reads (List Target × Bool)
  | 0, _ => .error .badSyntax
  | fuel + 1, ts =>
    if endsHere ts then .ok (([], false), ts)
    else do
      let (t, ts) ←
        if Reads.startsWith .roundOpen ts then do
          let (t, ts) ← read false fuel (ts.drop 1)
          let ts ← Reads.symbol .roundClose ts
          .ok (t, ts)
        else readOne dotted ts
      if Reads.startsWith .comma ts then
        let ((rest, _), ts) ← readMany dotted fuel (ts.drop 1)
        .ok ((t :: rest, true), ts)
      else .ok (([t], false), ts)
end

def ofTokens (dotted : Bool) : Reads Target := fun ts => read dotted (2 * ts.length + 2) ts

end Target

namespace Statement

def readFilters (room : Nat) : Nat → List Token → Except Fault Filters
  | 0, _ => .error .badSyntax
  | fuel + 1, ts => do
    let (w, ts) ← Reads.anyWord ts
    let (args, ts) ← Expr.readCall (Expr.readFirst room) ts
    match ts with
    | [] => .ok [(w, args.getD [])]
    | .sym .pipe :: [] => .ok [(w, args.getD [])]
    | ts =>
      let ts ← Reads.symbol .pipe ts
      .ok ((w, args.getD []) :: (← readFilters room fuel ts))

inductive SetHead where
  | value (target : Target) (e : Expr)
  | body (target : Target) (filters : Filters)

def readSetHead (room : Nat) (ts : List Token) : Except Fault SetHead := do
  let inBrackets := Reads.startsWith .roundOpen ts
  let (t, ts) ← Target.ofTokens true ts
  match inBrackets, t, ts with
  | false, .name _, [] | false, .field _ _, [] => .ok (.body t [])
  | false, .name _, .sym .pipe :: ts | false, .field _ _, .sym .pipe :: ts => do
    .ok (.body t (← readFilters room (ts.length + 1) ts))
  | _, t, ts =>
    let ts ← Reads.symbol .assign ts
    .ok (.value t (← Expr.ofRow room ts))

def readScopeHead (room : Nat) : Nat → Bool → List Token → Except Fault (List (Target × Expr))
  | 0, _, _ => .error .badSyntax
  | _ + 1, _, [] => .ok []
  | fuel + 1, first, ts => do
    let ts ← if first then .ok ts else Reads.symbol .comma ts
    let (t, ts) ←
      if Reads.startsWith .roundOpen ts then do
        let (t, ts) ← Target.ofTokens false (ts.drop 1)
        let ts ← Reads.symbol .roundClose ts
        .ok (t, ts)
      else Target.readOne false ts
    let ts ← Reads.symbol .assign ts
    let (e, ts) ← Expr.readFirst room ts
    let rest ← readScopeHead room fuel false ts
    .ok ((t, e) :: rest)

structure LoopHead where
  target : Target
  source : Expr
  only : Option Expr
  again : Bool

def readLoopHead (room : Nat) (ts : List Token) : Except Fault LoopHead := do
  let (t, ts) ← Target.ofTokens false ts
  let ts ← Reads.word "in" ts
  let (source, ts) ← Expr.readPlain room ts
  let (only, ts) ←
    if Reads.startsWithWord "if" ts then do
      let (e, ts) ← Expr.readFirst room (ts.drop 1)
      .ok (some e, ts)
    else .ok (none, ts)
  let again := Reads.startsWithWord "recursive" ts
  Reads.finish (if again then ts.drop 1 else ts)
  .ok ⟨t, source, only, again⟩

def dropContext : List Token → Except Fault (List Token)
  | .word "with" :: ts | .word "without" :: ts => Reads.word "context" ts
  | ts => .ok ts

def readInsertHead (room : Nat) (ts : List Token) : Except Fault (Expr × Bool) := do
  let (e, ts) ← Expr.readFirst room ts
  let (optional, ts) ← match ts with
    | .word "ignore" :: ts => do .ok (true, ← Reads.word "missing" ts)
    | ts => .ok (false, ts)
  Reads.finish (← dropContext ts)
  .ok (e, optional)

def readTaken : Nat → Bool → List Token → Except Fault (List String)
  | 0, _, _ => .error .badSyntax
  | _ + 1, _, [] => .ok []
  | fuel + 1, first, ts => do
    let ts ← if first then .ok ts else Reads.symbol .comma ts
    match ts with
    | [] => .ok []
    | ts =>
      let (w, ts) ← Target.readName ts
      let (w, ts) ← match ts with
        | .word "as" :: ts => Target.readName ts
        | ts => .ok (w, ts)
      match ts with
      | .word "with" :: _ | .word "without" :: _ =>
        Reads.finish (← dropContext ts)
        .ok [w]
      | ts => do .ok (w :: (← readTaken fuel false ts))

def readParameters (room : Nat) : Nat → Bool → Bool → Reads (List Parameter)
  | 0, _, _, _ => .error .badSyntax
  | fuel + 1, first, filled, ts =>
    if Reads.startsWith .roundClose ts then .ok ([], ts.drop 1)
    else do
      let ts ← if first then .ok ts else Reads.symbol .comma ts
      if Reads.startsWith .roundClose ts then .ok ([], ts.drop 1)
      else
        let (w, ts) ← Target.readName ts
        let (fallback, ts) ←
          if Reads.startsWith .assign ts then do
            let (e, ts) ← Expr.readFirst room (ts.drop 1)
            .ok (some e, ts)
          else if filled then .error .badSyntax
          else .ok (none, ts)
        let (rest, ts) ← readParameters room fuel false fallback.isSome ts
        .ok (⟨w, fallback⟩ :: rest, ts)

def asks (segments rest : List Segment) : Bool :=
  (segments.take (segments.length - rest.length)).any fun
    | .print ts | .statement ts => ts.any fun
      | .word w => w == "caller"
      | _ => false
    | _ => false

structure Body where
  statements : List Statement
  closing : String
  head : List Token
  rest : List Segment

mutual
def readBody : Nat → Nat → List String → List Segment → Except Fault Body
  | 0, _, _, _ => .error .badSyntax
  | _ + 1, _, _, [] => .error .badSyntax
  | _ + 1, _, _, .broken f :: _ => .error f
  | fuel + 1, room, closings, .text cs :: rest => do
    let b ← readBody fuel room closings rest
    .ok { b with statements := text (String.ofList cs) :: b.statements }
  | fuel + 1, room, closings, .print ts :: rest => do
    let e ← Expr.ofTokens room ts
    let b ← readBody fuel room closings rest
    .ok { b with statements := print e :: b.statements }
  | fuel + 1, room, closings, .statement ts :: rest => do
    let (w, ts) ← Reads.anyWord ts
    if closings.contains w then .ok ⟨[], w, ts, rest⟩
    else if room = 0 then .error .badSyntax
    else
      let (s, rest) ← readStatement fuel (room - 1) w ts rest
      let b ← readBody fuel room closings rest
      .ok { b with statements := s :: b.statements }

def readClosed : Nat → Nat → String → List Segment →
    Except Fault (List Statement × List Segment)
  | 0, _, _, _ => .error .badSyntax
  | fuel + 1, room, closing, rest => do
    let b ← readBody fuel room [closing] rest
    Reads.finish b.head
    .ok (b.statements, b.rest)

def readStatement : Nat → Nat → String → List Token → List Segment →
    Except Fault (Statement × List Segment)
  | 0, _, _, _, _ => .error .badSyntax
  | fuel + 1, room, "if", ts, rest => readChoose fuel room ts rest
  | fuel + 1, room, "for", ts, rest => do
    let ⟨target, source, only, again⟩ ← readLoopHead room ts
    let b ← readBody fuel room ["endfor", "else"] rest
    Reads.finish b.head
    if b.closing = "else" then
      let (otherwise, rest) ← readClosed fuel room "endfor" b.rest
      .ok (loop target source only again b.statements otherwise, rest)
    else .ok (loop target source only again b.statements [], b.rest)
  | fuel + 1, room, "set", ts, rest => do
    match ← readSetHead room ts with
    | .value t e => .ok (set t e, rest)
    | .body t filters =>
      let (body, rest) ← readClosed fuel room "endset" rest
      .ok (capture t filters body, rest)
  | fuel + 1, room, "with", ts, rest => do
    let targets ← readScopeHead room (ts.length + 1) true ts
    let (body, rest) ← readClosed fuel room "endwith" rest
    .ok (scope targets body, rest)
  | fuel + 1, room, "filter", ts, rest => do
    let filters ← readFilters room (ts.length + 1) ts
    let (body, rest) ← readClosed fuel room "endfilter" rest
    .ok (filtered filters body, rest)
  | fuel + 1, room, "autoescape", ts, rest => do
    let mode ← Expr.ofTokens room ts
    let (body, rest) ← readClosed fuel room "endautoescape" rest
    .ok (escaped mode body, rest)
  | fuel + 1, room, "block", ts, rest => do
    let (w, ts) ← Reads.anyWord ts
    Reads.finish ts
    let b ← readBody fuel room ["endblock"] rest
    match b.head with
    | [] => .ok (block w b.statements, b.rest)
    | ts =>
      Reads.finish (← Reads.word w ts)
      .ok (block w b.statements, b.rest)
  | fuel + 1, room, "macro", ts, rest => do
    let (w, ts) ← Reads.anyWord ts
    let ts ← Reads.symbol .roundOpen ts
    let (parameters, ts) ← readParameters room (ts.length + 1) true false ts
    Reads.finish ts
    let (body, after) ← readClosed fuel room "endmacro" rest
    .ok (define w parameters (asks rest after) body, after)
  | fuel + 1, room, "call", ts, rest => do
    let (parameters, ts) ←
      if Reads.startsWith .roundOpen ts then
        readParameters room (ts.length + 1) true false (ts.drop 1)
      else .ok ([], ts)
    match ← Expr.ofTokens room ts with
    | .call f args =>
      let (body, after) ← readClosed fuel room "endcall" rest
      .ok (callWith f args parameters (asks rest after) body, after)
    | _ => .error .badSyntax
  | _ + 1, room, "do", ts, rest => do
    match ← Expr.ofTokens room ts with
    | .call f args => .ok (ignore (.call f args), rest)
    | _ => .error .badSyntax
  | _ + 1, room, "include", ts, rest => do
    let (e, optional) ← readInsertHead room ts
    .ok (insert e optional, rest)
  | _ + 1, room, "extends", ts, rest => do
    .ok (extend (← Expr.ofTokens room ts), rest)
  | _ + 1, room, "import", ts, rest => do
    let (e, ts) ← Expr.readFirst room ts
    let ts ← Reads.word "as" ts
    let (w, ts) ← Target.readName ts
    Reads.finish (← dropContext ts)
    .ok (take e (.name w), rest)
  | _ + 1, room, "from", ts, rest => do
    let (e, ts) ← Expr.readFirst room ts
    let ts ← Reads.word "import" ts
    .ok (takeNames e (← readTaken (ts.length + 1) true ts), rest)
  | _ + 1, _, _, _, _ => .error .badSyntax

def readChoose : Nat → Nat → List Token → List Segment → Except Fault (Statement × List Segment)
  | 0, _, _, _ => .error .badSyntax
  | fuel + 1, room, ts, rest => do
    let condition ← Expr.ofTokens room ts
    let b ← readBody fuel room ["endif", "else", "elif"] rest
    if b.closing = "elif" then
      let (s, rest) ← readChoose fuel room b.head b.rest
      .ok (choose condition b.statements [s], rest)
    else
      Reads.finish b.head
      if b.closing = "else" then
        let (no, rest) ← readClosed fuel room "endif" b.rest
        .ok (choose condition b.statements no, rest)
      else .ok (choose condition b.statements [], b.rest)
end

def readAll : Nat → List Segment → Except Fault (List Statement)
  | 0, _ => .error .badSyntax
  | _ + 1, [] => .ok []
  | _ + 1, .broken f :: _ => .error f
  | fuel + 1, .text cs :: rest => do
    .ok (text (String.ofList cs) :: (← readAll fuel rest))
  | fuel + 1, .print ts :: rest => do
    let e ← Expr.ofTokens Expr.depthLimit ts
    .ok (print e :: (← readAll fuel rest))
  | fuel + 1, .statement ts :: rest => do
    let (w, ts) ← Reads.anyWord ts
    let (s, rest) ← readStatement fuel (Expr.depthLimit - 1) w ts rest
    .ok (s :: (← readAll fuel rest))

mutual
def blocks : Statement → List (String × List Statement)
  | block name body => (name, body) :: blocksOf body
  | choose _ yes no => blocksOf yes ++ blocksOf no
  | loop _ _ _ _ body otherwise => blocksOf body ++ blocksOf otherwise
  | capture _ _ body | scope _ body | filtered _ body | escaped _ body => blocksOf body
  | define _ _ _ body | callWith _ _ _ _ body => blocksOf body
  | _ => []
termination_by structural s => s

def blocksOf : List Statement → List (String × List Statement)
  | [] => []
  | s :: rest => blocks s ++ blocksOf rest
termination_by structural ss => ss
end

mutual
def hidesBlock : Statement → Bool
  | define _ _ _ body | callWith _ _ _ _ body => !(blocksOf body).isEmpty
  | block _ body => anyHides body
  | choose _ yes no => anyHides yes || anyHides no
  | loop _ _ _ _ body otherwise => anyHides body || anyHides otherwise
  | capture _ _ body | scope _ body | filtered _ body | escaped _ body => anyHides body
  | _ => false
termination_by structural s => s

def anyHides : List Statement → Bool
  | [] => false
  | s :: rest => hidesBlock s || anyHides rest
termination_by structural ss => ss
end

/-- The statements that a text is. No two blocks have one name, and none is in a routine. Each level
of reading uses up a segment or goes one statement deeper, so four times their number is enough
fuel. -/
def ofText (cs : List Char) : Except Fault (List Statement) := do
  let segments := Segment.scan cs
  let statements ← readAll (4 * segments.length + 4) segments
  let names := (blocksOf statements).map Prod.fst
  if names.eraseDups.length < names.length || anyHides statements then .error .badSyntax
  else .ok statements

end Statement

end Pipework.Template
