import Pipework.Definition.Basic
import Pipework.Json.Read

/-! Definitions read from documents. -/

namespace Pipework

open Doc (Reader)

namespace Prompt

def read : Reader Prompt := fun levels d =>
  match Doc.readFields ["role", "name", "content"] levels d with
  | some (levels, [role, name, content]) => do
    let role ← Doc.withDefault "user" Doc.readText levels role
    let name ← Doc.optional Doc.readText levels name
    let content ← Doc.withDefault "" Doc.readText levels content
    some ⟨role, name, content⟩
  | _ => none

end Prompt

namespace ProcessSpec

def read : Reader ProcessSpec := fun levels d =>
  match Doc.readFields ["name", "args"] levels d with
  | some (levels, [name, args]) => do
    let name ← Doc.withDefault "" Doc.readText levels name
    let args ← Doc.withDefault .null Doc.toJson? levels args
    some ⟨name, args⟩
  | _ => none

end ProcessSpec

namespace Definition

def readHooks : Reader (Option String) := fun levels d =>
  match Doc.readFields ["progress"] levels d with
  | some (levels, [progress]) => Doc.optional Doc.readText levels progress
  | _ => none

def nodeFields : List String :=
  ["name", "label", "process", "request", "prompts", "model", "options", "ui", "autofill", "case",
    "input", "output"]

def pipeFields : List String :=
  ["id", "name", "nodes", "goto", "input", "output", "whitelist", "hooks"]

mutual
def read : Nat → Doc → Option Definition
  | 0, _ => none
  | levels + 1, d => match Doc.readFields pipeFields (levels + 1) d with
    | some (_, [id, name, nodes, goto, input, output, whitelist, hooks]) => do
      let id ← Doc.optional Doc.readText levels id
      let name ← Doc.optional Doc.readText levels name
      let nodes ← match nodes with
        | none => some []
        | some nodes => readNodes levels nodes
      let goto ← Doc.optional Doc.readText levels goto
      let input ← Doc.optional Doc.toJson? levels input
      let output ← Doc.optional Doc.toJson? levels output
      let whitelist ← Doc.optional (Doc.readList Doc.readText) levels whitelist
      let progress ← Doc.withDefault none readHooks levels hooks
      some ⟨id, name, nodes, goto, input, output, whitelist, progress⟩
    | _ => none
termination_by structural levels => levels

def readNodes : Nat → Doc → Option (List (NodeDef Definition))
  | 0, d => if d.isBlank then some [] else none
  | levels + 1, d => d.listItems?.bind (·.mapM (readNode levels))
termination_by structural levels => levels

def readNode : Nat → Doc → Option (NodeDef Definition)
  | 0, _ => none
  | levels + 1, d => match Doc.readFields nodeFields (levels + 1) d with
    | some (_, [name, label, process, request, prompts, model, options, ui, autofill, cases, input,
        output]) => do
      let name ← Doc.optional Doc.readText levels name
      let label ← Doc.optional Doc.readText levels label
      let process ← Doc.optional ProcessSpec.read levels process
      let request ← Doc.optional Doc.toJson? levels request
      let prompts ← Doc.withDefault [] (Doc.readList Prompt.read) levels prompts
      let model ← Doc.optional Doc.readText levels model
      let options ← Doc.optional Doc.toJson? levels options
      let ui ← Doc.optional Doc.readText levels ui
      let autofill ← Doc.optional Doc.readText levels autofill
      let cases ← match cases with
        | none => some none
        | some cases => cases.isNull?.bind fun isNull =>
          if isNull then some none else (readCases levels cases).map some
      let input ← Doc.optional Doc.toJson? levels input
      let output ← Doc.optional Doc.toJson? levels output
      some ⟨name, label, process, request, prompts, model, options, ui, autofill, cases, input,
        output⟩
    | _ => none
termination_by structural levels => levels

def readCases : Nat → Doc → Option (List (String × Definition))
  | 0, d => if d.isBlank then some [] else none
  | levels + 1, d => d.objectFields?.bind fun fields =>
    fields.mapM fun (field : Option String × Doc) => field.1.bind fun expression =>
      (read levels field.2).map fun d => (expression, d)
termination_by structural levels => levels
end

def ofText? (s : String) : Option Definition :=
  (Doc.parse? s).bind (read Doc.maxLevels)

def ofJson? (j : Json) : Option Definition :=
  let d := Doc.ofJson j
  read d.depth d

end Definition

end Pipework
