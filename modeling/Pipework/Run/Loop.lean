import Pipework.Run.Dispatch

/-! The loop of a run. Each turn either ends the run, ends the innermost pipe, jumps back within the
first pipe, or runs one node; before each turn the run may be cancelled. Only running a node counts
against the limit, and still the loop ends: every turn makes `Loop.fuel` smaller. -/

namespace Pipework

inductive Ending where
  | completed (value : Json)
  | suspended (snapshot : Snapshot)
  deriving Repr

variable {σ : Type}

structure Loop (σ : Type) where
  scene : Scene σ
  left : Nat

inductive Turn (σ : Type) where
  | more (l : Loop σ)
  | done (result : Except RunError Ending) (s : Scene σ)

namespace Run

def pass (r : Run) (node : String) (output : Json) : Except RunError Run :=
  match (r.stack.top.record node output).advance with
  | .ok f => .ok (r.withTop f)
  | .error target => .error (.gotoTargetNotFound r.stack.top.pipe.id target r.id)

/-- Where a pipe that has run out of nodes wants to jump, and its mapped output. -/
def close (ev : Evaluator) (r : Run) : Except RunError (Option String × Option Json) :=
  let top := r.stack.top
  let fail : NodeError → RunError := .mapping top.pipe.id r.id
  match ev.resolveGoto top.pipe.goto top.dataValue with
  | .error e => .error (fail e)
  | .ok goto => match top.pipe.output with
    | none => .ok (goto, none)
    | some spec => match ev.resolve top.dataValue spec with
      | .error e => .error (fail e)
      | .ok output => .ok (goto, some output)

/-- The result of a case: its mapped output, else its latest output, or its input if it has no
nodes. -/
def caseResult (child : Frame) (output : Option Json) : Json :=
  let key := if child.pipe.isControl then "input" else "output"
  output.getD ((Keyed.get? child.data key).getD .null)

def closeCase (ev : Evaluator) (r : Run) (parent : Frame) (rest : List Frame) :
    Except RunError Run :=
  match r.close ev with
  | .error e => .error e
  | .ok (goto, output) =>
    let jump := goto.or parent.jump
    let below : Run := { r with stack := ⟨{ parent with jump := jump }, rest⟩ }
    match parent.current? with
    | some n => below.pass n.name (caseResult r.stack.top output)
    | none => match below.stack.top.advance with
      | .ok f => .ok (below.withTop f)
      | .error target => .error (.gotoTargetNotFound parent.pipe.id target r.id)

def closeRoot (ev : Evaluator) (r : Run) : Except RunError (Run ⊕ Json) :=
  let top := r.stack.top
  match r.close ev with
  | .error e => .error e
  | .ok (none, output) => .ok (.inr (output.getD top.dataValue))
  | .ok (some target, _) => match top.pipe.indexOf? target with
    | some i => .ok (.inl (r.withTop { top with cursor := i }))
    | none => .error (.gotoTargetNotFound top.pipe.id target r.id)

end Run

namespace Engine

variable (eng : Engine σ)

def isCancelled (token : Option String) (w : σ) : Bool :=
  match token with
  | some t => eng.services.isCancelled t w
  | none => false

def runNode (s : Scene σ) (n : Node Pipe) (left : Nat) : Turn σ :=
  match eng.dispatch s n with
  | (.error e, s) => .done (.error e) s
  | (.ok (.advance output), s) => match s.run.pass n.name output with
    | .ok run => .more ⟨{ s with run := run }, left⟩
    | .error e => .done (.error e) s
  | (.ok (.enter child), s) =>
    .more ⟨{ s with run := { s.run with stack := s.run.stack.push child } }, left⟩
  | (.ok (.suspend snapshot), s) =>
    .done (.ok (.suspended snapshot)) { s with run := { s.run with paused := some snapshot } }

def turn (token : Option String) (l : Loop σ) : Turn σ :=
  let s := l.scene
  let run := s.run
  if eng.isCancelled token s.world then .done (.error (.cancelled run.id)) s
  else match run.stack.top.current? with
    | some n => match l.left with
      | 0 => .done (.error (.stepLimitExceeded run.id eng.settings.maxSteps)) s
      | left + 1 => eng.runNode s n left
    | none => match run.stack.below with
      | parent :: rest => match run.closeCase eng.evaluator parent rest with
        | .ok run => .more ⟨{ s with run := run }, l.left⟩
        | .error e => .done (.error e) s
      | [] => match run.closeRoot eng.evaluator with
        | .ok (.inl run) => .more ⟨{ s with run := run }, l.left⟩
        | .ok (.inr value) => .done (.ok (.completed value)) s
        | .error e => .done (.error e) s

end Engine

/-- An upper bound on the turns to come. Running a node adds at most one frame or finishes the first
pipe, ending a case may finish the first pipe, and a jump within it takes that back. -/
def Loop.fuel (l : Loop σ) : Nat :=
  4 * l.left + 2 * l.scene.run.stack.below.length
    + (if l.scene.run.stack.root.isFinished then 1 else 0) + 1

namespace Engine

variable (eng : Engine σ)

def turns (token : Option String) : Nat → Loop σ → Except RunError Ending × Scene σ
  | 0, l => (.error (.stepLimitExceeded l.scene.run.id eng.settings.maxSteps), l.scene)
  | fuel + 1, l => match eng.turn token l with
    | .done result s => (result, s)
    | .more l => turns token fuel l

def drive (token : Option String) (s : Scene σ) : Except RunError Ending × Scene σ :=
  let l : Loop σ := ⟨s, eng.settings.maxSteps⟩
  eng.turns token l.fuel l

end Engine

end Pipework
