import Pipework.Identifier
import Pipework.Json.Read
import Pipework.Run.Frame
import Pipework.Timestamp

/-! Snapshots of paused runs as JSON. All fields must be there, and identifiers and instants are
brought to one form. -/

namespace Pipework

def Doc.readChoice {α : Type} (ofName? : String → Option α) : Doc.Reader α := fun levels d =>
  match levels, d with
  | _, .str (some s) => ofName? s
  | levels + 1, .obj [(some s, x)] =>
    match toJson? levels x with
    | some .null => ofName? s
    | _ => none
  | _, _ => none

namespace PausedNode

def fields : List String := ["name", "label", "type", "ui"]

def read : Doc.Reader PausedNode := fun levels d =>
  match Doc.readFields fields levels d with
  | some (levels, [name, label, type, ui]) => do
    let name ← Doc.required Doc.readText levels name
    let label ← Doc.required Doc.readText levels label
    let type ← Doc.required (Doc.readChoice NodeType.ofName?) levels type
    let ui ← Doc.required (Doc.readChoice UiKind.ofName?) levels ui
    some ⟨name, label, type, ui⟩
  | _ => none

def toJson (n : PausedNode) : Json :=
  .obj [("name", .str n.name), ("label", .str n.label), ("type", .str n.type.name),
    ("ui", .str n.ui.name)]

end PausedNode

namespace Snapshot

def fields : List String := ["id", "input", "node", "data", "type", "ui", "suspended_at"]

def readValue : Doc.Reader Json := Doc.toJson?

def read : Doc.Reader Snapshot := fun levels d =>
  match Doc.readFields fields levels d with
  | some (levels, [id, input, node, data, type, ui, suspendedAt]) => do
    let id ← Identifier.ofText? (← Doc.required Doc.readText levels id)
    let input ← Doc.required (Doc.readList readValue) levels input
    let node ← Doc.required PausedNode.read levels node
    let data ← Doc.required readValue levels data
    let type ← Doc.required (Doc.readChoice NodeType.ofName?) levels type
    let ui ← Doc.required (Doc.readChoice UiKind.ofName?) levels ui
    let suspendedAt ← Instant.ofText? (← Doc.required Doc.readText levels suspendedAt)
    some ⟨id, input, node, data, type, ui, suspendedAt⟩
  | _ => none

def ofText? (s : String) : Option Snapshot := (Doc.parse? s).bind (read Doc.maxLevels)

def toJson (s : Snapshot) : Json :=
  .obj [("id", .str s.id), ("input", .arr s.input), ("node", s.node.toJson), ("data", s.data),
    ("type", .str s.type.name), ("ui", .str s.ui.name),
    ("suspended_at", .str s.suspendedAt.text)]

end Snapshot

end Pipework
