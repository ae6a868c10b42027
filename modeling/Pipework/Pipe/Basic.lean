import Pipework.Prompt
import Pipework.Whitelist

/-! Pipes that have been checked. A pipe runs its nodes in order; a switch node holds a pipe for
each of its cases. -/

namespace Pipework

inductive UiKind where
  | cli
  | web
  | form
  | chat
  deriving DecidableEq, Repr

namespace UiKind

def name : UiKind → String
  | cli => "cli"
  | web => "web"
  | form => "form"
  | chat => "chat"

def ofName? (s : String) : Option UiKind := [cli, web, form, chat].find? fun k => k.name == s

def isInteractive : UiKind → Bool
  | cli => true
  | _ => false

end UiKind

inductive NodeType where
  | process
  | switch
  | ai
  | request
  | userInput
  deriving DecidableEq, Repr

namespace NodeType

def name : NodeType → String
  | process => "process"
  | switch => "switch"
  | ai => "ai"
  | request => "request"
  | userInput => "user-input"

def ofName? (s : String) : Option NodeType :=
  [process, switch, ai, request, userInput].find? fun t => t.name == s

end NodeType

structure Case (π : Type) where
  expression : String
  pipe : π
  deriving Repr

inductive NodeKind (π : Type) where
  | process (name : String) (args : Json)
  | switch (cases : List (Case π))
  | ai (prompts : List Prompt) (model : String) (options : Json)
  | request (payload : Json)
  | userInput (ui : UiKind) (autofill : Option String)
  deriving Repr

def NodeKind.type {π : Type} : NodeKind π → NodeType
  | process .. => .process
  | switch .. => .switch
  | ai .. => .ai
  | request .. => .request
  | userInput .. => .userInput

structure Node (π : Type) where
  name : String
  label : String
  index : Nat
  kind : NodeKind π
  input : Option Json
  output : Option Json
  deriving Repr

/-- A checked pipe. The pipe of a case knows the pipe of its switch as its parent, and its scope is
the parent and the switch node. -/
structure Pipe where
  id : String
  name : String
  nodes : List (Node Pipe)
  whitelist : Option Whitelist
  goto : Option String
  input : Option Json
  output : Option Json
  progress : Option String
  scope : Option String
  parent : Option String
  deriving Repr

namespace Pipe

def isControl (p : Pipe) : Bool := p.nodes.isEmpty

def indexOf? (p : Pipe) (node : String) : Option Nat := p.nodes.findIdx? fun n => n.name == node

def node? (p : Pipe) (node : String) : Option (Node Pipe) := p.nodes.find? fun n => n.name == node

theorem lt_of_indexOf? {p : Pipe} {node : String} {i : Nat} (h : p.indexOf? node = some i) :
    i < p.nodes.length := by
  obtain ⟨hi, -⟩ := List.findIdx?_eq_some_iff_getElem.1 h
  exact hi

end Pipe

end Pipework
