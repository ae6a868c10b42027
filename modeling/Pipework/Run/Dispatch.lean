import Pipework.Json.Doc
import Pipework.Run.Error
import Pipework.Run.Frame
import Pipework.Run.Services
import Pipework.Text.Lines

/-! Running one node. The result is an output to go on with, a case to enter, or a question that
pauses the run. -/

namespace Pipework

inductive Step where
  | advance (output : Json)
  | enter (child : Frame)
  | suspend (snapshot : Snapshot)
  deriving Repr

structure Scene (σ : Type) where
  run : Run
  world : σ

namespace Run

variable (r : Run)

def nodeError (n : Node Pipe) (e : NodeError) : RunError :=
  .node r.stack.top.pipe.id n.index n.name r.id e

def callContext (n : Node Pipe) : CallContext :=
  ⟨r.stack.top.pipe.id, r.id, n.name, r.sid, r.global⟩

def mapOutput (ev : Evaluator) (n : Node Pipe) (raw : Json) : Except RunError Json :=
  match n.output with
  | none => .ok raw
  | some spec =>
    (ev.resolve (.obj (Keyed.put r.stack.top.data "output" raw)) spec).mapError (r.nodeError n)

end Run

def defaultCase : String := "default"

/-- The first case whose test holds, else the first default, else nothing. Defaults are not
tested. -/
def selectCase (ev : Evaluator) (data : Json) :
    Option (Case Pipe) → List (Case Pipe) → Except NodeError (Option (Case Pipe))
  | fallback, [] => .ok fallback
  | fallback, c :: cs =>
    if c.expression = defaultCase then selectCase ev data (fallback.or (some c)) cs
    else match ev.test c.expression data with
      | .error e => .error e
      | .ok true => .ok (some c)
      | .ok false => selectCase ev data fallback cs

def renderPrompts (ev : Evaluator) (data : Json) : List Prompt → Except NodeError (List Prompt)
  | [] => .ok []
  | p :: ps => match ev.render p.content data with
    | .error e => .error e
    | .ok content => match renderPrompts ev data ps with
      | .error e => .error e
      | .ok ps => .ok ({ p with content := Json.text content } :: ps)

def replyValue (text : String) : Json := (Json.parse? text).getD (.str text)

def hookCall (name : String) (c : CallContext) (timeout : Nat) (chunk : String) : HookCall :=
  ⟨name, .obj [("pipe", .str c.pipe), ("node", .str c.node), ("context", .str c.run),
    ("chunk", .str chunk)], c, timeout⟩

variable {σ : Type}

namespace Engine

variable (eng : Engine σ)

def notifyAll (progress : Option String) (c : CallContext) (chunks : List String) (w : σ) : σ :=
  match progress with
  | none => w
  | some name => chunks.foldl (fun w chunk =>
      eng.services.notify (hookCall name c eng.settings.hookTimeout chunk) w) w

def finish (s : Scene σ) (n : Node Pipe) (answer : Except NodeError Json × σ) :
    Except RunError Step × Scene σ :=
  match answer with
  | (.error e, w) => (.error (s.run.nodeError n e), { s with world := w })
  | (.ok raw, w) => ((s.run.mapOutput eng.evaluator n raw).map .advance, { s with world := w })

/-- The output of a node whose chat has been answered, put together from the chunks. Each chunk is
told to the hook of the pipe, whatever comes of the reply. -/
def readReply (s : Scene σ) (n : Node Pipe) (answer : ChatReply × σ) :
    Except RunError Step × Scene σ :=
  let pipe := s.run.stack.top.pipe
  let (reply, w) := answer
  let w := eng.notifyAll pipe.progress (s.run.callContext n) reply.chunks w
  let text := String.join reply.chunks
  match reply.status with
  | .error e => (.error (s.run.nodeError n e), { s with world := w })
  | .ok raw =>
    if text.isEmpty then
      (.error (.emptyStream pipe.id n.index n.name s.run.id raw), { s with world := w })
    else
      ((s.run.mapOutput eng.evaluator n (replyValue text)).map .advance, { s with world := w })

def dispatchAi (s : Scene σ) (n : Node Pipe) (prompts : List Prompt) (model : String)
    (options : Json) : Except RunError Step × Scene σ :=
  let data := s.run.stack.top.dataValue
  match renderPrompts eng.evaluator data prompts with
  | .error e => (.error (s.run.nodeError n e), s)
  | .ok prompts =>
    let key := PromptMemory.key s.run.stack.top.pipe.id n.name
    let sent := s.run.memory.merged key prompts
    let run := { s.run with memory := s.run.memory.merge key prompts }
    match eng.evaluator.resolve data options with
    | .error e => (.error (run.nodeError n e), ⟨run, s.world⟩)
    | .ok options =>
      eng.readReply ⟨run, s.world⟩ n
        (eng.services.chat ⟨model, sent, options⟩ (run.callContext n) s.world)

def dispatchSwitch (s : Scene σ) (n : Node Pipe) (cases : List (Case Pipe)) :
    Except RunError Step :=
  let top := s.run.stack.top
  match selectCase eng.evaluator top.dataValue none cases with
  | .error e => .error (s.run.nodeError n e)
  | .ok none => .error (.switchCaseNotFound top.pipe.id n.name s.run.id)
  | .ok (some c) =>
    ((Frame.child eng.evaluator c.pipe top).mapError (s.run.nodeError n)).map .enter

def seed (data : Json) (autofill : Option String) : Except NodeError (List String) :=
  match autofill with
  | none => .ok []
  | some template => (eng.evaluator.render template data).map fun j =>
      Text.lines (Json.text j) ++ [sentinel]

def boundInput (data : Keyed Json) (n : Node Pipe) : Except NodeError Json :=
  match n.input with
  | some spec => eng.evaluator.resolve (.obj data) spec
  | none => .ok ((Keyed.get? data "input").getD .null)

def dispatchUserInput (s : Scene σ) (n : Node Pipe) (ui : UiKind) (autofill : Option String) :
    Except RunError Step × Scene σ :=
  let top := s.run.stack.top
  match eng.boundInput top.data n with
  | .error e => (.error (s.run.nodeError n e), s)
  | .ok bound =>
    if ui.isInteractive then
      match eng.seed top.dataValue autofill with
      | .error e => (.error (s.run.nodeError n e), s)
      | .ok seed =>
        let (answer, w) := eng.services.render ⟨n.name, n.label, bound, seed⟩ s.world
        eng.finish s n (answer.map fun lines => .str (Text.join "\n" lines), w)
    else
      let paused : PausedNode := ⟨n.name, n.label, n.kind.type, ui⟩
      (.ok (.suspend
        ⟨s.run.id, top.input, paused, bound, n.kind.type, ui, eng.services.now s.world⟩), s)

def dispatch (s : Scene σ) (n : Node Pipe) : Except RunError Step × Scene σ :=
  let data := s.run.stack.top.dataValue
  match n.kind with
  | .process name args => match eng.evaluator.resolve data args with
    | .error e => (.error (s.run.nodeError n e), s)
    | .ok args => eng.finish s n (eng.services.process name args (s.run.callContext n) s.world)
  | .request payload => match eng.evaluator.resolve data payload with
    | .error e => (.error (s.run.nodeError n e), s)
    | .ok payload => eng.finish s n (eng.services.request payload (s.run.callContext n) s.world)
  | .ai prompts model options => eng.dispatchAi s n prompts model options
  | .switch cases => (eng.dispatchSwitch s n cases, s)
  | .userInput ui autofill => eng.dispatchUserInput s n ui autofill

end Engine

end Pipework
