import Pipework.Template.Order

/-! From data to values of templates and back. Maps come out in the order of their keys. -/

namespace Pipework.Template.Value

mutual
def ofJson : Json → Value
  | .null => nothing
  | .bool b => bool b
  | .int n => int n (if 0 ≤ n then .unsigned64 else .signed64)
  | .float bits => float (Float.ofBits bits)
  | .str s => str s
  | .arr items => list (ofItems items)
  | .obj fields => ofPairs (ofFields fields)
termination_by structural j => j

def ofItems : List Json → List Value
  | [] => []
  | x :: xs => ofJson x :: ofItems xs
termination_by structural items => items

def ofFields : List (String × Json) → List (Value × Value)
  | [] => []
  | (k, x) :: xs => (str k, ofJson x) :: ofFields xs
termination_by structural fields => fields
end

def keyText : Value → Except Fault String
  | str s | markup s => .ok s
  | bool b => .ok (if b then "true" else "false")
  | int n _ => .ok (Json.writeInt n)
  | float x =>
    if x.isFinite then .ok (Json.numberLayout.write x.toBits) else .error .keyNotFinite
  | builtin f => .ok f.name
  | undefined | nothing | list _ | series _ | map _ | loop _ _ _ | space _ _ | routine _ _ =>
    .error .keyNotText

mutual
def toJson : Value → Except Fault Json
  | undefined => .ok .null
  | nothing => .ok .null
  | bool b => .ok (.bool b)
  | int n _ => if Width.word n then .ok (.int n) else .error .numberOutOfRange
  | float x => .ok (Json.ofFloat x)
  | str s => .ok (.str s)
  | markup s => .ok (.str s)
  | list items => (toItems items).map .arr
  | series items => (toItems items).map .arr
  | map fields => (toFields fields).map fun pairs => .obj (Keyed.ofPairs pairs)
  | loop _ _ fields => (toFields fields).map fun pairs => .obj (Keyed.ofPairs pairs)
  | space _ fields => (toFields fields).map fun pairs => .obj (Keyed.ofPairs pairs)
  | builtin f => .ok (.str f.name)
  | routine id name => .ok (.str (routine id name).text)
termination_by structural v => v

def toItems : List Value → Except Fault (List Json)
  | [] => .ok []
  | x :: xs => do
    let j ← toJson x
    let js ← toItems xs
    .ok (j :: js)
termination_by structural items => items

def toFields : List (Value × Value) → Except Fault (List (String × Json))
  | [] => .ok []
  | (k, x) :: xs => do
    let key ← keyText k
    let j ← toJson x
    let rest ← toFields xs
    .ok ((key, j) :: rest)
termination_by structural fields => fields
end

end Pipework.Template.Value
