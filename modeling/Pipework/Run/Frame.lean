import Pipework.Evaluator
import Pipework.Instant
import Pipework.Pipe.Basic

/-! The state of a run: a stack of frames, one for each pipe that is being run. A frame for a case
starts from the data of the frame below it and sees the input that was visible there. -/

namespace Pipework

structure Frame where
  pipe : Pipe
  /-- The index of the current node. -/
  cursor : Nat
  /-- What templates see: `global`, `sid`, `input`, `output` and the outputs of nodes by name. -/
  data : Keyed Json
  /-- The values given so far. -/
  input : List Json
  /-- The node to go to next, named by a case that has just ended. -/
  jump : Option String
  /-- For a case, the input visible where it was entered. -/
  inherited : Option Json
  deriving Repr

namespace Frame

def root (pipe : Pipe) (global : Keyed Json) (sid : String) : Frame :=
  ⟨pipe, 0, [("global", .obj global), ("sid", .str sid), ("input", .arr []), ("output", .null)], [],
    none, none⟩

def dataValue (f : Frame) : Json := .obj f.data

def visibleInput (f : Frame) (input : List Json) : Json := f.inherited.getD (.arr input)

/-- Takes new input and shows it to templates, mapped if the pipe maps its input. -/
def bind (ev : Evaluator) (f : Frame) (input : List Json) : Except NodeError Frame :=
  let data := Keyed.put f.data "input" (f.visibleInput input)
  match f.pipe.input with
  | none => .ok { f with input := input, data := data }
  | some spec => match ev.resolve (.obj data) spec with
    | .error e => .error e
    | .ok mapped => .ok { f with input := input, data := Keyed.put data "input" mapped }

def child (ev : Evaluator) (pipe : Pipe) (parent : Frame) : Except NodeError Frame :=
  bind ev ⟨pipe, 0, parent.data, [], none, some ((Keyed.get? parent.data "input").getD .null)⟩
    parent.input

/-- Keeps an output under the name of its node and as the latest one. -/
def record (f : Frame) (node : String) (output : Json) : Frame :=
  { f with data := Keyed.put (Keyed.put f.data node output) "output" output }

def current? (f : Frame) : Option (Node Pipe) := f.pipe.nodes[f.cursor]?

def isFinished (f : Frame) : Bool := f.pipe.nodes.length ≤ f.cursor

def setGlobal (f : Frame) (global : Keyed Json) : Frame :=
  { f with data := Keyed.put f.data "global" (.obj global) }

def setSid (f : Frame) (sid : String) : Frame :=
  { f with data := Keyed.put f.data "sid" (.str sid) }

/-- Steps to the node of the pending jump, or to the next one. The target of a jump that leads
nowhere is the error. -/
def advance (f : Frame) : Except String Frame :=
  match f.jump with
  | none => .ok { f with cursor := f.cursor + 1 }
  | some target => match f.pipe.indexOf? target with
    | some i => .ok { f with cursor := i, jump := none }
    | none => .error target

end Frame

/-- Frames from the innermost to that of the pipe the run was started with. -/
structure Stack where
  top : Frame
  below : List Frame
  deriving Repr

namespace Stack

def single (f : Frame) : Stack := ⟨f, []⟩

def frames (s : Stack) : List Frame := s.top :: s.below

def root (s : Stack) : Frame := s.below.getLast?.getD s.top

def push (s : Stack) (f : Frame) : Stack := ⟨f, s.top :: s.below⟩

def map (g : Frame → Frame) (s : Stack) : Stack := ⟨g s.top, s.below.map g⟩

end Stack

structure PausedNode where
  name : String
  label : String
  type : NodeType
  ui : UiKind
  deriving DecidableEq, Repr

structure Snapshot where
  id : String
  input : List Json
  node : PausedNode
  data : Json
  type : NodeType
  ui : UiKind
  suspendedAt : Instant
  deriving DecidableEq, Repr

/-- All of a run that outlives a pause. -/
structure Run where
  id : String
  sid : String
  global : Keyed Json
  memory : PromptMemory
  stack : Stack
  paused : Option Snapshot
  deriving Repr

namespace Run

def start (id : String) (pipe : Pipe) : Run := ⟨id, "", [], [], .single (.root pipe [] ""), none⟩

def pipe (r : Run) : Pipe := r.stack.root.pipe

def current? (r : Run) : Option (Node Pipe) := r.stack.top.current?

def withGlobal (r : Run) (global : Keyed Json) : Run :=
  { r with global := global, stack := r.stack.map (·.setGlobal global) }

def withSid (r : Run) (sid : String) : Run :=
  { r with sid := sid, stack := r.stack.map (·.setSid sid) }

def withTop (r : Run) (f : Frame) : Run := { r with stack := { r.stack with top := f } }

end Run

end Pipework
