import Pipework.Template.Filter
import Pipework.Template.Test

/-! The filters that work on the items of a value, and filters by their names. -/

namespace Pipework.Template.Filter

def textOrder (alike : Bool) (a b : Value) : Ordering :=
  match alike, a.text?, b.text? with
  | true, some s, some t => compare s.toLower t.toLower
  | _, _, _ => a.cmp b

def turned (backward : Bool) (order : Value → Value → Ordering) : Value → Value → Ordering :=
  if backward then fun a b => (order a b).swap else order

def pathOf (path : String) (v : Value) : Except Fault Value :=
  (Text.splitOn '.' path.toList).foldlM (fun v step =>
    if !step.isEmpty && step.all Token.isDigit then
      v.itemOf (.count (Decimal.ofDigits (Token.digits step)))
    else v.fieldOf (String.ofList step)) v

def pathOr (path : String) (other v : Value) : Value :=
  match pathOf path v with
  | .ok .undefined | .error _ => other
  | .ok v => v

def pathOrder (alike : Bool) (path : String) (a b : Value) : Ordering :=
  match pathOf path a, pathOf path b with
  | .ok a, .ok b => textOrder alike a b
  | _, _ => .eq

def sort : Filter := fun v args => do
  args.placesAtMost 0
  let items ← v.items
  let strict ← args.flag "case_sensitive"
  let path ← (args.named? "attribute").mapM Args.toText
  let backward ← args.flag "reverse"
  args.onlyNamed ["case_sensitive", "attribute", "reverse"]
  let order := match path with
    | none => textOrder !strict
    | some path => pathOrder (!strict) path
  .ok (.list (Value.sort (turned backward order) items))

def sortFields : Filter := fun v args => do
  args.placesAtMost 0
  match v.fields? with
  | none => .error .invalidOperation
  | some fields =>
    let byValue ← match ← (args.named? "by").mapM Args.toText with
      | none | some "key" => .ok false
      | some "value" => .ok true
      | some _ => .error .invalidOperation
    let strict ← args.flag "case_sensitive"
    let backward ← args.flag "reverse"
    args.onlyNamed ["by", "case_sensitive", "reverse"]
    let part (v : Value) : Value := match v with
      | .list [key, x] => if byValue then x else key
      | v => v
    let order (a b : Value) : Ordering := textOrder (!strict) (part a) (part b)
    .ok (.list (Value.sort (turned backward order) (fields.map fun p => .list [p.1, p.2])))

def identity (alike : Bool) (path : Option String) (v : Value) : Value :=
  let v := match path with
    | none => v
    | some path => pathOr path .undefined v
  match alike, v.text? with
  | true, some s => .str (String.ofList (Text.lower s.toList))
  | _, _ => v

def unique : Filter := fun v args => do
  args.placesAtMost 0
  let path ← (args.named? "attribute").mapM Args.toText
  let strict ← args.flag "case_sensitive"
  args.onlyNamed ["attribute", "case_sensitive"]
  let (_, kept) := (← v.items).foldl (fun (seen, kept) x =>
    let key := identity (!strict) path x
    if seen.any fun other => key.cmp other == .eq then (seen, kept)
    else (key :: seen, x :: kept)) (([] : List Value), ([] : List Value))
  .ok (.list kept.reverse)

def batch : Filter := fun v args => do
  let count ← Args.toCount (← args.required 0)
  let filler := args.optional? 1
  args.atMost 2
  if count = 0 then .error .invalidOperation
  else
    let items ← v.items
    let rows := (List.range ((items.length + count - 1) / count)).map fun k =>
      (items.drop (k * count)).take count
    .ok (.list (rows.map fun row => .list (match filler with
      | some x => row ++ List.replicate (count - row.length) x
      | none => row)))

def slice : Filter := fun v args => do
  let count ← Args.toCount (← args.required 0)
  let filler := args.optional? 1
  args.atMost 2
  if count = 0 then .error .invalidOperation
  else
    let items ← v.items
    let size := items.length / count
    let longer := items.length % count
    .ok (.list ((List.range count).map fun k =>
      let length := if k < longer then size + 1 else size
      let row := (items.drop (k * size + Min.min k longer)).take length
      .list (match filler with
        | some x => if k < longer then row else row ++ [x]
        | none => row)))

def chain : Filter := fun v args => do
  let rest ← args.places.mapM Value.items
  args.onlyNamed []
  .ok (.series ((← v.items) ++ rest.flatten))

def passes (path : Option String) (test : Option (String × Args)) (v : Value) :
    Except Fault Bool := do
  let v ← match path with
    | none => .ok v
    | some path => pathOf path v
  match test with
  | none => .ok v.isTrue
  | some (name, args) => Test.run name v args

def keep (wanted : Bool) (path : Option String) (test : Option (String × Args)) (v : Value) :
    Except Fault Value := do
  match test with
  | some (name, _) => if (Test.named? name).isNone then throw .unknownTest
  | none => pure ()
  let kept ← (← v.items).filterM fun x => do
    let found ← passes path test x
    return found == wanted
  .ok (.list kept)

def testAt (i : Nat) (args : Args) : Except Fault (Option (String × Args)) := do
  match ← args.optionalText i with
  | none => .ok none
  | some name => .ok (some (name, { args with places := args.places.drop (i + 1) }))

def select (wanted : Bool) : Filter := fun v args => do keep wanted none (← testAt 0 args) v

def selectAt (wanted : Bool) : Filter := fun v args => do
  let path ← args.text 0
  keep wanted (some path) (← testAt 1 args) v

def mapPath (key : Value) (v : Value) (args : Args) : Except Fault Value := do
  args.placesAtMost 0
  let other := (args.named.bind (Value.lookup (.str "default"))).getD .undefined
  let found ← (← v.items).mapM fun x =>
    match (match key.text? with
      | some path => pathOf path x
      | none => x.itemOf key) with
    | .ok .undefined => .ok other
    | .ok y => .ok y
    | .error e => if other.isUndefined then .error e else .ok other
  args.onlyNamed ["attribute", "default"]
  .ok (.list found)

/-- Filters by their names; those that apply others to items look these up in turn. Each level takes
one argument, so the number of arguments is enough fuel. -/
def named? : Nat → String → Option Filter
  | 0, _ => none
  | fuel + 1, name => match name with
    | "sort" => some sort
    | "dictsort" => some sortFields
    | "unique" => some unique
    | "batch" => some batch
    | "slice" => some slice
    | "chain" => some chain
    | "select" => some (select true)
    | "reject" => some (select false)
    | "selectattr" => some (selectAt true)
    | "rejectattr" => some (selectAt false)
    | "map" => some fun v args =>
      match args.named? "attribute", args.places with
      | some key, _ => mapPath key v args
      | none, [] => .error .invalidOperation
      | none, f :: rest => do
        match named? fuel (← Args.toText f) with
        | none => .error .unknownFilter
        | some f => do .ok (.list (← (← v.items).mapM fun x => f x ⟨rest, none⟩))
    | name => table.lookup name

def run (name : String) (v : Value) (args : Args) : Except Fault Value :=
  match named? (args.places.length + 1) name with
  | some f => f v args
  | none => .error .unknownFilter

end Pipework.Template.Filter
