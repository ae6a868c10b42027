import Pipework.Pipe.Catalog
import Pipework.Run.Loop
import Pipework.Run.Parked

/-! Attempts on a run: a new run, or a parked one that has been taken up. An attempt is started over
or resumed once, and what comes of it decides about the parked entry: a pause stores the run, an
ending or an error removes it, and a cancelled or abandoned attempt leaves it as it was. -/

namespace Pipework

/-- A run in hand, the lease it was taken up under, and the token that may cancel it. -/
structure Attempt where
  run : Run
  lease : Option Nat
  token : Option String
  deriving Repr

namespace Attempt

def create (id : String) (pipe : Pipe) : Attempt := ⟨.start id pipe, none, none⟩

def takeUp (parked : ParkedRuns) (id : String) : Except RunError (Attempt × ParkedRuns) :=
  match parked.checkout id with
  | .error e => .error e
  | .ok ((run, lease), parked) => .ok (⟨run, some lease, none⟩, parked)

def withGlobal (a : Attempt) (global : Keyed Json) : Attempt :=
  { a with run := a.run.withGlobal global }

def withSid (a : Attempt) (sid : String) : Attempt := { a with run := a.run.withSid sid }

def withToken (a : Attempt) (token : String) : Attempt := { a with token := some token }

def abandon (a : Attempt) (parked : ParkedRuns) : ParkedRuns :=
  match a.lease with
  | some lease => parked.release a.run.id lease
  | none => parked

def file (a : Attempt) (result : Except RunError Ending) (run : Run) (now : Instant)
    (parked : ParkedRuns) : ParkedRuns :=
  match result with
  | .ok (.suspended _) => parked.park run a.lease now
  | .ok (.completed _) => parked.remove a.run.id
  | .error (.cancelled _) => parked
  | .error _ => parked.remove a.run.id

def settle (a : Attempt) (result : Except RunError Ending) (run : Run) (now : Instant)
    (parked : ParkedRuns) : ParkedRuns :=
  a.abandon (a.file result run now parked)

end Attempt

namespace Run

/-- The run at its first node, with new input. What its nodes have sent stays remembered. -/
def restart (ev : Evaluator) (r : Run) (input : List Json) : Except RunError Run :=
  match (Frame.root r.pipe r.global r.sid).bind ev input with
  | .error e => .error (.mapping r.pipe.id r.id e)
  | .ok f => .ok { r with stack := .single f, paused := none }

def answerValue : List Json → Json
  | [answer] => answer
  | answers => .arr answers

def answer (ev : Evaluator) (r : Run) (answers : List Json) : Except RunError Run :=
  let r := { r with paused := none }
  let top := r.stack.top
  match top.current? with
  | none => .error (.notSuspended r.id)
  | some n => match top.bind ev (top.input ++ answers) with
    | .error e => .error (.mapping top.pipe.id r.id e)
    | .ok f =>
      let r := r.withTop f
      match r.mapOutput ev n (answerValue answers) with
      | .error e => .error e
      | .ok output => r.pass n.name output

end Run

namespace Engine

variable {σ : Type} (eng : Engine σ)

def driveFrom (a : Attempt) (ready : Except RunError Run) (w : σ) :
    Except RunError Ending × Scene σ :=
  match ready with
  | .error e => (.error e, ⟨a.run, w⟩)
  | .ok run => eng.drive a.token ⟨run, w⟩

def conclude (a : Attempt) (parked : ParkedRuns) (r : Except RunError Ending × Scene σ) :
    Except RunError Ending × ParkedRuns × σ :=
  (r.1, a.settle r.1 r.2.run (eng.services.now r.2.world) parked, r.2.world)

def exec (a : Attempt) (input : List Json) (parked : ParkedRuns) (w : σ) :
    Except RunError Ending × ParkedRuns × σ :=
  eng.conclude a parked (eng.driveFrom a (a.run.restart eng.evaluator input) w)

def resume (a : Attempt) (answers : List Json) (parked : ParkedRuns) (w : σ) :
    Except RunError Ending × ParkedRuns × σ :=
  match a.run.paused with
  | none => (.error (.notSuspended a.run.id), a.abandon parked, w)
  | some _ => eng.conclude a parked (eng.driveFrom a (a.run.answer eng.evaluator answers) w)

def resumeParked (id : String) (answers : List Json) (parked : ParkedRuns) (w : σ) :
    Except RunError Ending × ParkedRuns × σ :=
  match Attempt.takeUp parked id with
  | .error e => (.error e, parked, w)
  | .ok (a, parked) => eng.resume a answers parked w

end Engine

end Pipework
