import Pipework.Definition.Basic
import Pipework.Pipe.Basic
import Pipework.Text.Case

/-! Checking definitions. `Pipe.build` returns the pipe or the first fault in the order of the text:
whether there are nodes at all, then for each node its name, whether an earlier node has it, and
what the node does, cases included. -/

namespace Pipework

inductive BuildError where
  | emptyPipe (pipe : String)
  | missingNodeName (pipe : String) (index : Nat)
  | duplicateNodeName (pipe node : String)
  | unknownNodeType (pipe node : String)
  | invalidUiKind (pipe node ui : String)
  | missingProcessName (pipe node : String)
  | processNotAllowed (pipe node process : String)
  deriving DecidableEq, Repr

namespace BuildError

def message : BuildError → String
  | emptyPipe pipe => "pipe '" ++ pipe ++ "' has no nodes"
  | missingNodeName pipe index =>
    "pipe '" ++ pipe ++ "': node #" ++ Nat.repr index ++ " has no name"
  | duplicateNodeName pipe node => "pipe '" ++ pipe ++ "': duplicate node name '" ++ node ++ "'"
  | unknownNodeType pipe node =>
    "pipe '" ++ pipe ++ "': node '" ++ node ++ "' has no recognized type"
  | invalidUiKind pipe node ui =>
    "pipe '" ++ pipe ++ "': node '" ++ node ++ "' has invalid ui kind '" ++ ui ++ "'"
  | missingProcessName pipe node =>
    "pipe '" ++ pipe ++ "': process node '" ++ node ++ "' has no process name"
  | processNotAllowed pipe node process =>
    "pipe '" ++ pipe ++ "': process '" ++ process ++ "' in node '" ++ node
      ++ "' is not in whitelist"

end BuildError

namespace Pipe

structure Header where
  id : String
  name : String
  whitelist : Option Whitelist
  progress : Option String
  scope : Option String
  parent : Option String
  deriving DecidableEq, Repr

def rootHeader (fresh : String) (d : Definition) : Header :=
  let id := (d.id.or d.name).getD fresh
  ⟨id, d.name.getD id, d.whitelist.map .mk, d.progress, none, none⟩

def scopeOf (pipe node : String) : String := pipe ++ "." ++ node

/-- A case takes its id from where it stands, whatever it calls itself. A whitelist from above
holds, and the progress hook from above where it has none of its own. -/
def Header.forCase (h : Header) (node expression : String) (d : Definition) : Header :=
  let scope := scopeOf h.id node
  let id := scope ++ "#" ++ expression
  ⟨id, id, h.whitelist.or (d.whitelist.map .mk), d.progress.or h.progress, some scope, some h.id⟩

/-- What a node does unless it is a switch: the first of process, request, prompts and ui that is
there. -/
def leafKind {π : Type} (h : Header) (node : String) (n : NodeDef π) :
    Option (Except BuildError (NodeKind Pipe)) :=
  match n.process, n.request, n.prompts, n.ui with
  | some p, _, _, _ =>
    if p.name = "" then some (.error (.missingProcessName h.id node))
    else if Whitelist.permits h.whitelist p.name then some (.ok (.process p.name p.args))
    else some (.error (.processNotAllowed h.id node p.name))
  | none, some payload, _, _ => some (.ok (.request payload))
  | none, none, p :: ps, _ => some (.ok (.ai (p :: ps) (n.model.getD "") (n.options.getD .null)))
  | none, none, [], some ui => match UiKind.ofName? ui with
    | some kind => some (.ok (.userInput kind n.autofill))
    | none => some (.error (.invalidUiKind h.id node ui))
  | none, none, [], none => none

def labelOf (label : Option String) (name : String) : String :=
  match label with
  | none | some "" => Text.upperString name
  | some label => label

mutual
def pipeOf (h : Header) : Definition → Except BuildError Pipe
  | ⟨_, _, nodes, goto, input, output, _, _⟩ => match nodesOf h [] 0 nodes with
    | .error e => .error e
    | .ok nodes =>
      .ok ⟨h.id, h.name, nodes, h.whitelist, goto, input, output, h.progress, h.scope, h.parent⟩
termination_by structural d => d

def nodesOf (h : Header) (before : List String) (index : Nat) :
    List (NodeDef Definition) → Except BuildError (List (Node Pipe))
  | [] => .ok []
  | n :: ns => match nodeOf h before index n with
    | .error e => .error e
    | .ok node => match nodesOf h (node.name :: before) (index + 1) ns with
      | .error e => .error e
      | .ok nodes => .ok (node :: nodes)
termination_by structural ns => ns

def nodeOf (h : Header) (before : List String) (index : Nat) :
    NodeDef Definition → Except BuildError (Node Pipe)
  | ⟨name, label, process, request, prompts, model, options, ui, autofill, cases, input, output⟩ =>
    match name with
    | none | some "" => .error (.missingNodeName h.id index)
    | some name =>
      if before.contains name then .error (.duplicateNodeName h.id name)
      else
        let leaf := leafKind h name (NodeDef.mk (some name) label process request prompts model
          options ui autofill (none : Option (List (String × Definition))) input output)
        match leaf with
        | some (.error e) => .error e
        | some (.ok kind) => .ok ⟨name, labelOf label name, index, kind, input, output⟩
        | none => match casesIn h name cases with
          | .error e => .error e
          | .ok [] => .error (.unknownNodeType h.id name)
          | .ok cases => .ok ⟨name, labelOf label name, index, .switch cases, input, output⟩
termination_by structural n => n

def casesIn (h : Header) (node : String) :
    Option (List (String × Definition)) → Except BuildError (List (Case Pipe))
  | none => .ok []
  | some cases => casesOf h node cases
termination_by structural cs => cs

def casesOf (h : Header) (node : String) :
    List (String × Definition) → Except BuildError (List (Case Pipe))
  | [] => .ok []
  | (expression, d) :: cases => match pipeOf (h.forCase node expression d) d with
    | .error e => .error e
    | .ok pipe => match casesOf h node cases with
      | .error e => .error e
      | .ok cases => .ok (⟨expression, pipe⟩ :: cases)
termination_by structural cs => cs
end

/-- The pipe that a definition describes. The fresh id is for a definition that has neither id nor
name. -/
def build (fresh : String) (d : Definition) : Except BuildError Pipe :=
  let h := rootHeader fresh d
  if d.nodes.isEmpty then .error (.emptyPipe h.id) else pipeOf h d

end Pipe

end Pipework
