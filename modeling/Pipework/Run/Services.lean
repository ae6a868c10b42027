import Pipework.Evaluator
import Pipework.Instant
import Pipework.Prompt
import Pipework.Settings

/-! What a run calls on: processes, requests, a chat model and a terminal. Each service is a
function of the state of the world and returns the next one, so a run is determined by its start. -/

namespace Pipework

structure CallContext where
  pipe : String
  run : String
  node : String
  sid : String
  global : Keyed Json
  deriving DecidableEq, Repr

structure ChatRequest where
  model : String
  prompts : List Prompt
  options : Json
  deriving DecidableEq, Repr

/-- A reply: the pieces of text that came, and how the call ended. What came without being a piece
is its raw body. -/
structure ChatReply where
  chunks : List String
  status : Except NodeError String

/-- A question for the terminal. The seed is answered first; the sentinel ends the answer. -/
structure RenderRequest where
  node : String
  label : String
  input : Json
  seed : List String
  deriving DecidableEq, Repr

structure HookCall where
  name : String
  args : Json
  context : CallContext
  timeout : Nat
  deriving DecidableEq, Repr

def sentinel : String := "\x04"

structure Services (σ : Type) where
  process : String → Json → CallContext → σ → Except NodeError Json × σ
  request : Json → CallContext → σ → Except NodeError Json × σ
  chat : ChatRequest → CallContext → σ → ChatReply × σ
  render : RenderRequest → σ → Except NodeError (List String) × σ
  /-- Starts a hook without waiting for it. -/
  notify : HookCall → σ → σ
  isCancelled : String → σ → Bool
  now : σ → Instant

structure Engine (σ : Type) where
  evaluator : Evaluator
  services : Services σ
  settings : Settings

def noProcess (name : String) : NodeError :=
  .unsupported ("no process backend for '" ++ name ++ "'")

def noRequest : NodeError := .unsupported "no request backend"

def noChat (model : String) : NodeError :=
  .unsupported ("no chat backend for model '" ++ model ++ "'")

def noRenderer (node : String) : NodeError := .unsupported ("no renderer for node '" ++ node ++ "'")

end Pipework
