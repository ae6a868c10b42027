import Pipework.Yaml.Token

/-! The nodes that tokens make up: scalars, lists and maps with their tags and anchors, and aliases
of anchored nodes. -/

namespace Pipework.Yaml

structure Props where
  anchor : Option String
  tag : Option (List Char)
  deriving DecidableEq, Repr

namespace Props

def none : Props := ⟨Option.none, Option.none⟩

def isNone (p : Props) : Bool := p.anchor.isNone && p.tag.isNone

end Props

inductive Node where
  | alias (name : String)
  | scalar (props : Props) (isPlain : Bool) (text : String)
  | list (props : Props) (items : List Node)
  | map (props : Props) (fields : List (Node × Node))
  deriving Repr

namespace Node

def blank : Node := .scalar .none true ""

end Node

abbrev Handles := List (List Char × List Char)

namespace Handles

def standard : Handles := [(['!'], ['!']), (['!', '!'], "tag:yaml.org,2002:".toList)]

def resolve? (hs : Handles) (t : WrittenTag) : Option (List Char) :=
  if t.handle.isEmpty then some t.suffix
  else (hs.lookup t.handle).map (· ++ t.suffix)

def takeProps? (hs : Handles) : List Token → Option (Props × List Token)
  | .anchor a :: .tag t :: ts | .tag t :: .anchor a :: ts =>
    (hs.resolve? t).map fun tag => (⟨some a, some tag⟩, ts)
  | .anchor a :: ts => some (⟨some a, none⟩, ts)
  | .tag t :: ts => (hs.resolve? t).map fun tag => (⟨none, some tag⟩, ts)
  | ts => some (.none, ts)

end Handles

namespace Node

def endsBlock : List Token → Bool
  | .key :: _ | .value :: _ | .blockEnd :: _ => true
  | _ => false

def startsItem : List Token → Bool
  | .item :: _ => true
  | _ => false

def expect? (t : Token) : List Token → Option (List Token)
  | u :: ts => if u = t then some ts else none
  | [] => none

/-- How a node stands: in a collection by indentation, where a list may start that has its items in
the column of its parent, or in brackets. -/
inductive Place where
  | block
  | field
  | flow
  deriving DecidableEq, Repr

mutual
def read? (hs : Handles) : Nat → Place → List Token → Option (Node × List Token)
  | 0, _, _ => none
  | _ + 1, _, .alias name :: ts => some (.alias name, ts)
  | fuel + 1, place, ts => do
    let (props, ts) ← hs.takeProps? ts
    match ts with
    | .scalar isPlain text :: ts => some (.scalar props isPlain text, ts)
    | .flowList :: ts =>
      (flowItems? hs fuel true ts).map fun (items, ts) => (.list props items, ts)
    | .flowMap :: ts =>
      (flowFields? hs fuel true ts).map fun (fields, ts) => (.map props fields, ts)
    | .item :: _ =>
      if place = .field then
        let (items, ts) ← alignedItems? hs fuel ts
        some (.list props items, ts)
      else if props.isNone then none
      else some (.scalar props true "", ts)
    | t :: rest =>
      if place ≠ .flow && t = .blockList then
        let (items, ts) ← blockItems? hs fuel rest
        some (.list props items, ts)
      else if place ≠ .flow && t = .blockMap then
        let (fields, ts) ← blockFields? hs fuel rest
        some (.map props fields, ts)
      else if props.isNone then none
      else some (.scalar props true "", ts)
    | [] => none

def readUnless? (hs : Handles) : Nat → Bool → Place → List Token → Option (Node × List Token)
  | 0, _, _, _ => none
  | fuel + 1, isOmitted, place, ts =>
    if isOmitted then some (blank, ts) else read? hs fuel place ts

def blockItems? (hs : Handles) : Nat → List Token → Option (List Node × List Token)
  | 0, _ => none
  | _ + 1, .blockEnd :: ts => some ([], ts)
  | fuel + 1, .item :: ts => do
    let isOmitted := startsItem ts || ts.head? = some .blockEnd
    let (item, ts) ← readUnless? hs fuel isOmitted .block ts
    let (items, ts) ← blockItems? hs fuel ts
    some (item :: items, ts)
  | _ + 1, _ => none

def alignedItems? (hs : Handles) : Nat → List Token → Option (List Node × List Token)
  | 0, _ => none
  | fuel + 1, .item :: ts => do
    let (item, ts) ← readUnless? hs fuel (startsItem ts || endsBlock ts) .block ts
    let (items, ts) ← alignedItems? hs fuel ts
    some (item :: items, ts)
  | _ + 1, ts => some ([], ts)

def blockFields? (hs : Handles) : Nat → List Token → Option (List (Node × Node) × List Token)
  | 0, _ => none
  | _ + 1, .blockEnd :: ts => some ([], ts)
  | fuel + 1, .key :: ts => do
    let (key, ts) ← readUnless? hs fuel (endsBlock ts) .field ts
    let (x, ts) ← match ts with
      | .value :: ts => readUnless? hs fuel (endsBlock ts) .field ts
      | ts => some (blank, ts)
    let (fields, ts) ← blockFields? hs fuel ts
    some ((key, x) :: fields, ts)
  | _ + 1, _ => none

def flowValue? (hs : Handles) : Nat → Token → List Token → Option (Node × List Token)
  | 0, _, _ => none
  | fuel + 1, close, .value :: ts =>
    readUnless? hs fuel (ts.head? = some .comma || ts.head? = some close) .flow ts
  | _ + 1, _, ts => some (blank, ts)

def flowItems? (hs : Handles) : Nat → Bool → List Token → Option (List Node × List Token)
  | 0, _, _ => none
  | _ + 1, _, .flowListEnd :: ts => some ([], ts)
  | fuel + 1, isFirst, ts => do
    let ts ← if isFirst then some ts else expect? .comma ts
    match ts with
    | .flowListEnd :: ts => some ([], ts)
    | .key :: ts =>
      let isOmitted := match ts with
        | .value :: _ | .comma :: _ | .flowListEnd :: _ => true
        | _ => false
      let (key, ts) ← if isOmitted then some (blank, ts.drop 1) else read? hs fuel .flow ts
      let (x, ts) ← flowValue? hs fuel .flowListEnd ts
      let (items, ts) ← flowItems? hs fuel false ts
      some (.map .none [(key, x)] :: items, ts)
    | ts =>
      let (item, ts) ← read? hs fuel .flow ts
      let (items, ts) ← flowItems? hs fuel false ts
      some (item :: items, ts)

def flowFields? (hs : Handles) : Nat → Bool → List Token → Option (List (Node × Node) × List Token)
  | 0, _, _ => none
  | _ + 1, _, .flowMapEnd :: ts => some ([], ts)
  | fuel + 1, isFirst, ts => do
    let ts ← if isFirst then some ts else expect? .comma ts
    match ts with
    | .flowMapEnd :: ts => some ([], ts)
    | .key :: ts =>
      let isOmitted := match ts with
        | .value :: _ | .comma :: _ | .flowMapEnd :: _ => true
        | _ => false
      let (key, ts) ← readUnless? hs fuel isOmitted .flow ts
      let (x, ts) ← flowValue? hs fuel .flowMapEnd ts
      let (fields, ts) ← flowFields? hs fuel false ts
      some ((key, x) :: fields, ts)
    | ts =>
      let (key, ts) ← read? hs fuel .flow ts
      let (fields, ts) ← flowFields? hs fuel false ts
      some ((key, blank) :: fields, ts)
end

def directives? : Bool → Handles → List Token → Option (Handles × List Token)
  | versioned, hs, .directive (.version major minor) :: ts =>
    if versioned || major ≠ 1 || (minor ≠ 1 && minor ≠ 2) then none else directives? true hs ts
  | versioned, hs, .directive (.handle name stem) :: ts =>
    if (hs.lookup name).isSome then none else directives? versioned (hs ++ [(name, stem)]) ts
  | _, hs, ts => some (hs ++ Handles.standard, ts)

def endsDocument : List Token → Bool
  | .directive _ :: _ | .documentStart :: _ | .documentEnd :: _ | .textEnd :: _ => true
  | _ => false

def onlyEnds (ts : List Token) : Bool :=
  ts.dropWhile (· = .documentEnd) = [.textEnd]

def ofTokens? (ts : List Token) : Option (Option Node) := do
  let fuel := 4 * ts.length + 4
  let isBare := match ts with
    | .directive _ :: _ | .documentStart :: _ => false
    | _ => true
  if ts = [.textEnd] then some none
  else if isBare then
    let (d, ts) ← read? Handles.standard fuel .block ts
    if onlyEnds ts then some (some d) else none
  else
    let (hs, ts) ← directives? false [] ts
    let ts ← expect? .documentStart ts
    let (d, ts) ← readUnless? hs fuel (endsDocument ts) .block ts
    if onlyEnds ts then some (some d) else none

def ofText? (s : String) : Option (Option Node) := (Token.ofText? s).bind ofTokens?

end Node

end Pipework.Yaml
