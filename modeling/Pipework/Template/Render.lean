import Pipework.Template.Constant
import Pipework.Template.Function
import Pipework.Template.Page
import Pipework.Template.Selection

/-! Evaluation of expressions and rendering of statements. Both change the page: a call may run a
loop again, or a routine. The depth of calls is limited, and so is the nesting of what they run, so
the fuel is never the reason why an evaluation ends. -/

namespace Pipework.Template

abbrev Renders (α : Type) := StateT Page (Except Fault) α

namespace Renders

def fail {α : Type} (f : Fault) : Renders α := throw f

def capture (action : Renders Unit) : Renders String := do
  let outer := (← get).text
  modify fun p => { p with text := "" }
  action
  let inner := (← get).text
  modify fun p => { p with text := outer }
  return inner

def within (f : Frame) (action : Renders Unit) : Renders Unit := do
  set (← (← get).enter f)
  action
  modify Page.leave

def itemsOf (v : Value) : Renders (List Value) := liftM v.items

end Renders

def Target.assign (eval : Expr → Renders Value) : Target → Value → Renders Unit
  | .name s, v => modify fun p => p.store s v
  | .field e s, v => do
    match ← eval e with
    | .space id _ => modify fun p =>
      { p with spaces := p.spaces.modify id fun fields => Value.put (.str s) v fields }
    | _ => throw .invalidOperation
  | .tuple targets, v =>
    match v.elements? with
    | none => throw .cannotUnpack
    | some items =>
      if items.length = targets.length then assignAll eval targets items
      else throw .cannotUnpack
where
  assignAll (eval : Expr → Renders Value) : List Target → List Value → Renders Unit
    | t :: ts, v :: vs => do
      t.assign eval v
      assignAll eval ts vs
    | _, _ => pure ()

def changed (id : Nat) (vs : List Value) : Renders Value := do
  let p ← get
  let same := match p.changes.lookup id with
    | some last => Value.eqItems last vs
    | none => false
  set { p with changes := if same then p.changes else (id, vs) :: p.changes }
  return .bool !same

def cycled (fields : List (Value × Value)) (vs : List Value) : Except Fault Value :=
  match (Value.lookup (.str "index0") fields).bind Value.toInt? with
  | some i => match vs[i.toNat % vs.length]? with
    | some v => .ok v
    | none => .error .invalidOperation
  | none => .error .invalidOperation

def Args.gather (places : List (List Value)) (named : List (List (Value × Value))) : Args :=
  ⟨places.flatten, if named.isEmpty then none else some (Value.putAll named.flatten [])⟩

def bindParameters (parameters : List Parameter) (asks : Bool) (args : Args) :
    Except Fault (List Value) := do
  args.placesAtMost parameters.length
  let given (name : String) : Option Value := args.named.bind (Value.lookup (.str name))
  let values ← parameters.zipIdx.mapM fun (q, i) =>
    match args.places[i]?, given q.name with
    | some _, some _ => .error .tooManyArguments
    | some v, none => .ok v
    | none, some v => .ok v
    | none, none => .ok .undefined
  args.onlyNamed (parameters.map Parameter.name ++ if asks then ["caller"] else [])
  .ok values

def insertMissing (v : Value) (optional : Bool) : Except Fault Unit := do
  let names ← match v.plain, v.elements? with
    | .str s, _ => .ok [.str s]
    | _, some names => .ok names
    | .builtin _, none | .routine _ _, none => .ok []
    | _, none => .error .invalidOperation
  if !names.all fun n => n.text?.isSome then .error .invalidOperation
  else if !names.isEmpty && !optional then .error .missingTemplate
  else .ok ()

def escapesFor : Value → Except Fault Bool
  | .nothing | .bool false => .ok false
  | .bool true => .ok true
  | .str "html" => .ok true
  | .str "none" => .ok false
  | _ => .error .invalidOperation

mutual
def eval : Nat → Expr → Renders Value
  | 0, _ => throw .invalidOperation
  | fuel + 1, e =>
    match e with
    | .literal v => pure v
    | .name s => do return ((← get).find? s).getD .undefined
    | .list items => do return .list (← items.mapM (eval fuel))
    | .map fields => do
      let pairs ← fields.mapM fun (key, e) => do return (← eval fuel key, ← eval fuel e)
      return Value.ofPairs pairs
    | .unary op e => do op.apply (← eval fuel e)
    | .binary op a b => do
      let x ← eval fuel a
      let y ← eval fuel b
      op.apply x y
    | .chain first rest => do evalChain fuel (← eval fuel first) rest
    | .both a b => match (Expr.both a b).constant? with
      | some v => pure v
      | none => do
        let x ← eval fuel a
        if x.isTrue then eval fuel b else return x
    | .either a b => match (Expr.either a b).constant? with
      | some v => pure v
      | none => do
        let x ← eval fuel a
        if x.isTrue then return x else eval fuel b
    | .choose yes condition no => do
      if (← eval fuel condition).isTrue then eval fuel yes else eval fuel no
    | .field e s => do (← eval fuel e).fieldOf s
    | .item e key => do
      let v ← eval fuel e
      v.itemOf (← eval fuel key)
    | .slice e start stop step => do
      let v ← eval fuel e
      let a ← eval fuel start
      let b ← eval fuel stop
      v.slice a b (← eval fuel step)
    | .filter s e args => do
      let v ← eval fuel e
      Filter.run s v (← evalArgs fuel args)
    | .test s e args => do
      let v ← eval fuel e
      return .bool (← Test.run s v (← evalArgs fuel args))
    | .call (.name "super") args => do
      let _ ← evalArgs fuel args
      throw .invalidOperation
    | .call (.name "loop") args => do
      let args ← evalArgs fuel args
      match args.places, args.named with
      | [v], none => runAgain fuel v
      | _, _ => throw .invalidOperation
    | .call (.name s) args => do
      let args ← evalArgs fuel args
      match (← get).find? s with
      | some g => call fuel g args
      | none => throw .unknownFunction
    | .call (.field (.name "self") s) _ => do
      let text ← Renders.capture (runBlock fuel s)
      return (← get).captured text
    | .call (.field e s) args => do
      let v ← eval fuel e
      callField fuel v s (← evalArgs fuel args)
    | .call f args => do
      let g ← eval fuel f
      call fuel g (← evalArgs fuel args)

def evalChain : Nat → Value → List (BinaryOp × Expr) → Renders Value
  | 0, _, _ => throw .invalidOperation
  | _ + 1, _, [] => return .bool true
  | fuel + 1, x, (op, e) :: rest => do
    let y ← eval fuel e
    let v ← op.apply x y
    if v.isTrue then evalChain fuel y rest else return .bool false

def evalArgs : Nat → List (Passing × Expr) → Renders Args
  | 0, _ => throw .invalidOperation
  | fuel + 1, args => do
    let places ← args.filterMapM fun (passing, e) => do
      match passing with
      | .place => return some [← eval fuel e]
      | .items => return some (← Renders.itemsOf (← eval fuel e))
      | .name _ | .fields => return none
    let named ← args.filterMapM fun (passing, e) => do
      match passing with
      | .name key => return some [(.str key, ← eval fuel e)]
      | .fields => match (← eval fuel e).fields? with
        | some fields => return some fields
        | none => throw .invalidOperation
      | .place | .items => return none
    return Args.gather places named

def call : Nat → Value → Args → Renders Value
  | 0, _, _ => throw .invalidOperation
  | fuel + 1, f, args =>
    match f with
    | .builtin .range => liftM (Builtin.callRange args)
    | .builtin .dict => liftM (Builtin.callDict args)
    | .builtin .space => do
      let fields ← liftM (Builtin.spaceFields args)
      let p ← get
      set { p with spaces := p.spaces.push fields }
      return .space p.spaces.size fields
    | .routine id _ => do
      match (← get).routines[id]? with
      | some r => callRoutine fuel r args
      | none => throw .invalidOperation
    | .loop _ _ _ => throw .unknownFunction
    | _ => throw .invalidOperation

def callField : Nat → Value → String → Args → Renders Value
  | 0, _, _, _ => throw .invalidOperation
  | fuel + 1, v, name, args => do
    let places := args.places ++ (args.named.map fun fields => [Value.map fields]).getD []
    match v, name with
    | .loop id _ _, "changed" => changed id places
    | .loop _ _ fields, "cycle" => liftM (cycled fields places)
    | .loop _ _ _, _ => throw .unknownMethod
    | v, name => match v.fields?.bind (Value.lookup (.str name)) with
      | some f => call fuel f args
      | none => throw .unknownMethod

def callRoutine : Nat → Routine → Args → Renders Value
  | 0, _, _ => throw .invalidOperation
  | fuel + 1, r, args => do
    let values ← liftM (bindParameters r.parameters r.asks args)
    let p ← get
    let caller := (args.named.bind (Value.lookup (.str "caller"))).getD .undefined
    let own := if r.asks then [("caller", caller)] else []
    let seen : Frame := ⟨(p.closures[r.closure]?).getD [], none, none⟩
    set (← p.deeper 5 (⟨own, none, none⟩ :: seen :: r.around))
    let text ← Renders.capture do
      (r.parameters.zip values).reverse.forM fun (q, v) => do
        match v, q.fallback with
        | .undefined, some e =>
          let v ← eval fuel e
          modify fun p => p.store q.name v
        | v, _ => modify fun p => p.store q.name v
      r.body.forM (exec fuel)
    modify fun q => { q with frames := p.frames, depth := p.depth }
    return (← get).captured text

def runAgain : Nat → Value → Renders Value
  | 0, _ => throw .invalidOperation
  | fuel + 1, v => do
    match (← get).round?.bind Round.again with
    | none => throw .invalidOperation
    | some (target, body) =>
      let items ← Renders.itemsOf v
      let text ← Renders.capture (runLoop fuel target body true items v.isCounted)
      return (← get).captured text

def runLoop : Nat → Target → List Statement → Bool → List Value → Bool → Renders Unit
  | 0, _, _, _, _, _ => throw .invalidOperation
  | fuel + 1, target, body, again, items, counted => do
    let p ← get
    let depth := match p.round? with
      | some r => if r.again.isSome then r.depth + 1 else 0
      | none => 0
    let id := p.loops
    let values := items.toArray
    set { p with loops := id + 1 }
    Renders.within Frame.empty do
      items.zipIdx.forM fun (v, i) => do
        let value := loopValue id depth values counted i
        let round : Round := ⟨some value, depth, if again then some (target, body) else none⟩
        modify fun p => { p with frames := ⟨[], some round, none⟩ :: p.frames.drop 1 }
        target.assign (eval fuel) v
        body.forM (exec fuel)

def runBlock : Nat → String → Renders Unit
  | 0, _ => throw .invalidOperation
  | fuel + 1, name => do
    match (← get).blocks.lookup name with
    | none => throw .invalidOperation
    | some body => Renders.within Frame.empty (body.forM (exec fuel))

def exec : Nat → Statement → Renders Unit
  | 0, _ => throw .invalidOperation
  | fuel + 1, s =>
    match s with
    | .text s => modify fun p => p.write s
    | .print e => do
      let v ← eval fuel e
      modify fun p => p.print v
    | .choose condition yes no => do
      if (← eval fuel condition).isTrue then yes.forM (exec fuel) else no.forM (exec fuel)
    | .loop target source only again body otherwise => do
      let v ← eval fuel source
      let items ← Renders.itemsOf v
      let (items, counted) ← match only with
        | none => pure (items, v.isCounted)
        | some condition => do pure (← keepItems fuel target condition items, true)
      if items.isEmpty then otherwise.forM (exec fuel)
      else runLoop fuel target body again items counted
    | .set target e => do target.assign (eval fuel) (← eval fuel e)
    | .capture target filters body => do
      let v ← captureFiltered fuel filters body
      target.assign (eval fuel) v
    | .scope targets body =>
      Renders.within Frame.empty do
        targets.forM fun (t, e) => do t.assign (eval fuel) (← eval fuel e)
        body.forM (exec fuel)
    | .filtered filters body => do
      let v ← captureFiltered fuel filters body
      modify fun p => p.print v
    | .escaped mode body => do
      let escapes ← liftM (escapesFor (← eval fuel mode).plain)
      let outer := (← get).escapes
      modify fun p => { p with escapes := escapes }
      body.forM (exec fuel)
      modify fun p => { p with escapes := outer }
    | .ignore e => do let _ ← eval fuel e
    | .insert e optional => do liftM (insertMissing (← eval fuel e) optional)
    | .extend e => do
      match (← eval fuel e).text? with
      | some _ => throw .missingTemplate
      | none => throw .invalidOperation
    | .take e target => do
      liftM (insertMissing (← eval fuel e) false)
      target.assign (eval fuel) (.map [])
    | .takeNames e names => do
      liftM (insertMissing (← eval fuel e) false)
      modify fun p => names.foldl (fun p name => p.store name .undefined) p
    | .block name _ => runBlock fuel name
    | .define name parameters asks body => do
      let (p, id) := (← get).define parameters asks body
      set (p.store name (.routine id name))
    | .callWith f args parameters asks body => do
      let (p, id) := (← get).define parameters asks body
      set p
      let caller := (.name "caller", .literal (.routine id "caller"))
      let v ← eval fuel (.call f (args ++ [caller]))
      modify fun p => p.print v

def captureFiltered : Nat → Filters → List Statement → Renders Value
  | 0, _, _ => throw .invalidOperation
  | fuel + 1, filters, body => do
    let text ← Renders.capture (body.forM (exec fuel))
    filters.foldlM (fun v (name, args) => do Filter.run name v (← evalArgs fuel args))
      ((← get).captured text)

def keepItems : Nat → Target → Expr → List Value → Renders (List Value)
  | 0, _, _, _ => throw .invalidOperation
  | fuel + 1, target, condition, items => do
    set (← (← get).enter Frame.empty)
    let kept ← items.filterM fun v => do
      modify fun p => { p with frames := ⟨[], some ⟨none, 0, none⟩, none⟩ :: p.frames.drop 1 }
      target.assign (eval fuel) v
      return (← eval fuel condition).isTrue
    modify Page.leave
    return kept
end

def fuelFor (template : List Char) : Nat := (Page.depthLimit + 2) * (4 * template.length + 64)

def renderText (template : List Char) (data : Json) : Except Fault String := do
  let statements ← Statement.ofText template
  let page := Page.start data (Statement.blocksOf statements)
  let (_, page) ← (statements.forM (exec (fuelFor template))).run page
  .ok page.text

def evalText (expression : List Char) (data : Json) : Except Fault Value := do
  let e ← Expr.ofText expression
  let (v, _) ← (eval (fuelFor expression) e).run (Page.start data [])
  .ok v

end Pipework.Template
