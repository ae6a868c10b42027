import Pipework.Definition.Basic

/-! Definitions written as values. What is absent is left out, except that nodes and hooks always
stand. -/

namespace Pipework.Definition

def textField (key : String) (s : Option String) : Keyed Json :=
  (s.map fun s => (key, Json.str s)).toList

def valueField (key : String) (j : Option Json) : Keyed Json := (j.map fun j => (key, j)).toList

def listField (key : String) (js : List Json) : Keyed Json :=
  if js.isEmpty then [] else [(key, .arr js)]

def processField (p : Option ProcessSpec) : Keyed Json :=
  (p.map fun p => ("process", Json.obj [("name", .str p.name), ("args", p.args)])).toList

mutual
def toJson : Definition → Json
  | ⟨id, name, nodes, goto, input, output, whitelist, progress⟩ =>
    .obj (textField "id" id ++ textField "name" name ++ ("nodes", .arr (nodesJson nodes))
      :: textField "goto" goto ++ valueField "input" input ++ valueField "output" output
      ++ valueField "whitelist" (whitelist.map fun ps => .arr (ps.map .str))
      ++ [("hooks", .obj (textField "progress" progress))])
termination_by structural d => d

def nodesJson : List (NodeDef Definition) → List Json
  | [] => []
  | n :: ns => nodeJson n :: nodesJson ns
termination_by structural ns => ns

def nodeJson : NodeDef Definition → Json
  | ⟨name, label, process, request, prompts, model, options, ui, autofill, cases, input, output⟩ =>
    .obj (textField "name" name ++ textField "label" label ++ processField process
      ++ valueField "request" request ++ listField "prompts" (prompts.map Prompt.toJson)
      ++ textField "model" model ++ valueField "options" options ++ textField "ui" ui
      ++ textField "autofill" autofill ++ valueField "case" (caseField cases)
      ++ valueField "input" input ++ valueField "output" output)
termination_by structural n => n

def caseField : Option (List (String × Definition)) → Option Json
  | none => none
  | some cases => some (.obj (Keyed.ofPairs (casesJson cases)))
termination_by structural c => c

def casesJson : List (String × Definition) → List (String × Json)
  | [] => []
  | (expression, d) :: cases => (expression, toJson d) :: casesJson cases
termination_by structural cs => cs
end

end Pipework.Definition
