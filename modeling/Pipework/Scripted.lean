import Pipework.Run.Attempt

/-! Services whose answers are written in advance, for trying out pipes. Every call is kept in
order, and hooks run when a call takes time, when a reply comes in several portions or when they are
waited for. -/

namespace Pipework.Scripted

inductive Answer where
  | echo
  | value (j : Json)
  | failure (e : NodeError)
  deriving DecidableEq, Repr

def Answer.isKept : Answer → Bool
  | failure (.fatal _) => true
  | failure _ => false
  | echo | value _ => true

structure Behaviour where
  cancels : Option String
  delay : Nat
  answer : Answer
  deriving DecidableEq, Repr

def Behaviour.echo : Behaviour := ⟨none, 0, .echo⟩

inductive HookEnding where
  | ok
  | failed
  | dropped
  deriving DecidableEq, Repr

inductive Event where
  | process (name : String) (args : Json) (context : CallContext)
  | hook (name : String) (args : Json) (context : CallContext) (ending : HookEnding)
  | request (payload : Json) (context : CallContext)
  | chat (request : ChatRequest) (context : CallContext)
  | render (request : RenderRequest)

/-- The behaviours still to come; services that are `none` are not there. The names among
`hookNames` are recorded as hooks whoever calls them. A reply comes in portions of as many chunks as
`buffer` says; `streamed` of its `chunks` have come. -/
structure World where
  processes : Option (Keyed (List Behaviour))
  requests : Option (List Behaviour)
  replies : Option (List ChatReply)
  answers : Option (List (List String))
  hookNames : List String
  waiting : List HookCall
  cancelled : List String
  events : List Event
  calls : List (String × Json × CallContext)
  buffer : Nat
  chunks : Nat
  streamed : Nat

/-- The behaviour of the next call and those after it; the last one stays for ever, and where there
is none the call is echoed. -/
def next : List Behaviour → Behaviour × List Behaviour
  | [] => (.echo, [])
  | [b] => (b, [b])
  | b :: c :: rest => (b, c :: rest)

def Behaviour.result (b : Behaviour) (name : String) (args : Json) : Except NodeError Json :=
  match b.answer with
  | .echo => .ok (.obj [("process", .str name), ("args", args)])
  | .value j => .ok j
  | .failure e => .error e

namespace World

def record (w : World) (e : Event) : World := { w with events := w.events ++ [e] }

def cancel (w : World) (token : Option String) : World :=
  { w with cancelled := token.toList ++ w.cancelled }

def keep (w : World) (b : Behaviour) (name : String) (args : Json) (c : CallContext) : World :=
  if b.answer.isKept then { w with calls := w.calls ++ [(name, args, c)] } else w

def takeProcess (w : World) (script : Keyed (List Behaviour)) (name : String) (args : Json)
    (c : CallContext) : Behaviour × World :=
  let (b, rest) := next ((Keyed.get? script name).getD [])
  let w := { w with processes := some (Keyed.put script name rest) }
  (b, (w.keep b name args c).cancel b.cancels)

def endingOf (b : Behaviour) : HookEnding :=
  match b.answer with
  | .failure _ => .failed
  | .echo | .value _ => .ok

def runHook (w : World) (h : HookCall) : World :=
  match w.processes with
  | none => w
  | some script =>
    let (b, w) := w.takeProcess script h.name h.args h.context
    let ending := if h.timeout < b.delay then .dropped else endingOf b
    w.record (.hook h.name h.args h.context ending)

def settle (w : World) : World := w.waiting.foldl runHook { w with waiting := [] }

def wait (w : World) (b : Behaviour) : World := if b.delay = 0 then w else w.settle

def process (name : String) (args : Json) (c : CallContext) (w : World) :
    Except NodeError Json × World :=
  match w.processes with
  | none => (.error (noProcess name), w)
  | some script =>
    let (b, w) := w.takeProcess script name args c
    let w := w.record <|
      if w.hookNames.contains name then .hook name args c (endingOf b) else .process name args c
    (b.result name args, w.wait b)

def request (payload : Json) (c : CallContext) (w : World) : Except NodeError Json × World :=
  match w.requests with
  | none => (.error noRequest, w)
  | some script =>
    let (b, rest) := next script
    let w := { w with requests := some rest }.record (.request payload c)
    let w := (w.keep b "request" payload c).cancel b.cancels
    (b.result "request" payload, w.wait b)

def portion (w : World) : Nat := max w.buffer 1

def noReply : ChatReply := ⟨[], .error (.fatal "no scripted reply left")⟩

def chat (request : ChatRequest) (c : CallContext) (w : World) : ChatReply × World :=
  match w.replies with
  | none => (⟨[], .error (noChat request.model)⟩, w)
  | some replies =>
    let reply := replies.head?.getD noReply
    let w := { w with
      replies := some (replies.drop 1), chunks := reply.chunks.length, streamed := 0 }
    (reply, (if w.portion < reply.chunks.length then w.settle else w).record (.chat request c))

def answerTo (seed : List String) (answers : List (List String)) :
    List String × List (List String) :=
  let lines := seed.takeWhile (· ≠ sentinel)
  if seed.contains sentinel then (lines, answers)
  else (lines ++ answers.head?.getD [], answers.drop 1)

def render (request : RenderRequest) (w : World) : Except NodeError (List String) × World :=
  match w.answers with
  | none => (.error (noRenderer request.node), w)
  | some answers =>
    let (lines, rest) := answerTo request.seed answers
    (.ok lines, { w with answers := some rest }.record (.render request))

/-- Starts a hook for a chunk. The hooks of a portion run before the next portion comes. -/
def notify (h : HookCall) (w : World) : World :=
  let streamed := w.streamed + 1
  let w := { w with waiting := w.waiting ++ [h], streamed := streamed }
  if streamed % w.portion = 0 && streamed < w.chunks then w.settle else w

def callsTo (w : World) (name : String) : List (String × Json × CallContext) :=
  w.calls.filter fun c => c.1 == name

end World

/-- Time stands still: a call that takes time only lets hooks run. -/
def services : Services World where
  process := World.process
  request := World.request
  chat := World.chat
  render := World.render
  notify := World.notify
  isCancelled token w := w.cancelled.contains token
  now _ := ⟨0, 0⟩

end Pipework.Scripted
