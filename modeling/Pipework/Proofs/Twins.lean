import Pipework.Proofs.Passing

/-!
# Runs that differ in the output mapping of their first pipe

The mapping is not looked at before the first pipe is through. Up to there such runs do the same,
node by node. There the mapping is resolved before a jump is followed, so one that fails ends the
run even where the pipe would have been run again.
-/

namespace Pipework

variable {σ : Type}

namespace Pipe

def withOutput (p : Pipe) (output : Option Json) : Pipe := { p with output := output }

theorem withOutput_self (p : Pipe) : p.withOutput p.output = p := by
  cases p
  rfl

theorem pipeOf_withOutput {h : Header} {d : Definition} {p : Pipe} (hp : pipeOf h d = .ok p)
    (output : Option Json) : pipeOf h { d with output := output } = .ok (p.withOutput output) := by
  obtain ⟨id, name, nodes, goto, input, _, whitelist, progress⟩ := d
  obtain ⟨made, hmade, rfl⟩ := pipeOf_ok hp
  rw [pipeOf, hmade]
  rfl

theorem build_withOutput {fresh : String} {d : Definition} {p : Pipe}
    (hb : build fresh d = .ok p) (output : Option Json) :
    build fresh { d with output := output } = .ok (p.withOutput output) := by
  have hp := pipeOf_withOutput (pipeOf_of_build hb) output
  unfold build at hb ⊢
  dsimp only at hb ⊢
  split at hb
  · cases hb
  next hnodes =>
    rw [if_neg hnodes]
    exact hp

end Pipe

namespace Frame

def withOutput (f : Frame) (output : Option Json) : Frame :=
  { f with pipe := f.pipe.withOutput output }

variable (f : Frame) (output : Option Json)

theorem withOutput_self : f.withOutput f.pipe.output = f := by
  rw [withOutput, Pipe.withOutput_self]

theorem bind_withOutput (ev : Evaluator) (input : List Json) :
    (f.withOutput output).bind ev input = (f.bind ev input).map (·.withOutput output) := by
  have hinput : (f.withOutput output).pipe.input = f.pipe.input := rfl
  have hdata : Keyed.put (f.withOutput output).data "input"
      ((f.withOutput output).visibleInput input) =
      Keyed.put f.data "input" (f.visibleInput input) := rfl
  simp only [bind, hinput, hdata]
  cases f.pipe.input with
  | none => rfl
  | some spec =>
    dsimp only
    cases ev.resolve (.obj (Keyed.put f.data "input" (f.visibleInput input))) spec <;> rfl

theorem advance_withOutput :
    (f.withOutput output).advance = f.advance.map (·.withOutput output) := by
  have hjump : (f.withOutput output).jump = f.jump := rfl
  have hindex (target : String) :
      (f.withOutput output).pipe.indexOf? target = f.pipe.indexOf? target := rfl
  simp only [advance, hjump, hindex]
  cases f.jump with
  | none => rfl
  | some target =>
    dsimp only
    cases f.pipe.indexOf? target <;> rfl

end Frame

inductive Stack.Twin : Stack → Stack → Prop
  | root (f : Frame) (output : Option Json) : Twin ⟨f, []⟩ ⟨f.withOutput output, []⟩
  | case (f : Frame) {g g' : Frame} {below below' : List Frame} :
      Twin ⟨g, below⟩ ⟨g', below'⟩ → Twin ⟨f, g :: below⟩ ⟨f, g' :: below'⟩

namespace Stack.Twin

variable {s s' : Stack}

theorem top (h : s.Twin s') : ∃ output, s'.top = s.top.withOutput output := by
  cases h with
  | root f output => exact ⟨output, rfl⟩
  | case f => exact ⟨f.pipe.output, f.withOutput_self.symm⟩

theorem base (h : s.Twin s') : ∃ output, s'.root = s.root.withOutput output := by
  induction h with
  | root f output => exact ⟨output, rfl⟩
  | @case f g g' below below' _ ih =>
    have hroot (g : Frame) (below : List Frame) :
        Stack.root ⟨f, g :: below⟩ = Stack.root ⟨g, below⟩ := Stack.root_push ⟨g, below⟩ f
    rw [hroot, hroot]
    exact ih

theorem replace {f g : Frame} {output : Option Json} {below below' : List Frame}
    (h : Twin ⟨f, below⟩ ⟨f.withOutput output, below'⟩) (hpipe : g.pipe = f.pipe) :
    Twin ⟨g, below⟩ ⟨g.withOutput output, below'⟩ := by
  generalize hf : f.withOutput output = f' at h
  cases h with
  | root => exact .root g output
  | case _ hbelow =>
    have hsame : g.withOutput output = g := by
      have houtput : output = f.pipe.output := congrArg (·.pipe.output) hf
      rw [houtput, ← hpipe, g.withOutput_self]
    rw [hsame]
    exact .case g hbelow

theorem map {k : Frame → Frame}
    (hk : ∀ f output, k (f.withOutput output) = (k f).withOutput output) (h : s.Twin s') :
    (s.map k).Twin (s'.map k) := by
  induction h with
  | root f output =>
    have hroot := Twin.root (k f) output
    rwa [← hk] at hroot
  | case f _ ih => exact .case (k f) ih

end Stack.Twin

inductive Run.Twin (r : Run) : Run → Prop
  | of {s : Stack} : r.stack.Twin s → Twin r { r with stack := s }

inductive Run.TwinResult : Except RunError Run → Except RunError Run → Prop
  | error (e : RunError) : TwinResult (.error e) (.error e)
  | ok {r r' : Run} : r.Twin r' → TwinResult (.ok r) (.ok r')

namespace Run

def OutputFails (ev : Evaluator) (r : Run) : Prop :=
  ∃ spec x, r.stack.top.pipe.output = some spec ∧
    ev.resolve r.stack.top.dataValue spec = .error x

structure Through (ev : Evaluator) (r : Run) (goto : Option String) : Prop where
  below : r.stack.below = []
  current : r.current? = none
  goto : ev.resolveGoto r.stack.top.pipe.goto r.stack.top.dataValue = .ok goto

/-- The pipe of one of two twins would be run again, but for its output mapping. -/
def Parts (ev : Evaluator) (r r' : Run) : Prop :=
  ∃ target, r.Through ev (some target) ∧ (r.OutputFails ev ∨ r'.OutputFails ev)

def Final (r : Run) (result : Except RunError Ending) : Prop :=
  (∃ value, result = .ok (.completed value)) ∨
    ∃ x, result = .error (.mapping r.stack.top.pipe.id r.id x)

/-- How calls on twins end: in the same way, or each with its own value where the first pipe is
through and does not jump. -/
inductive EndsAlike (ev : Evaluator) (r : Run) :
    Except RunError Ending → Except RunError Ending → Prop
  | same (result : Except RunError Ending) : EndsAlike ev r result result
  | final {result result' : Except RunError Ending} : r.Through ev none → r.Final result →
      r.Final result' → EndsAlike ev r result result'

namespace Twin

variable {r r' : Run}

theorem id (h : r.Twin r') : r'.id = r.id := by
  obtain ⟨hs⟩ := h
  rfl

theorem paused (h : r.Twin r') : r'.paused = r.paused := by
  obtain ⟨hs⟩ := h
  rfl

theorem current (h : r.Twin r') : r'.current? = r.current? := by
  obtain @⟨⟨top', below'⟩, hs⟩ := h
  obtain ⟨output, rfl⟩ := hs.top
  rfl

theorem withGlobal (h : r.Twin r') (global : Keyed Json) :
    (r.withGlobal global).Twin (r'.withGlobal global) := by
  obtain ⟨hs⟩ := h
  exact .of (r := r.withGlobal global) (hs.map (k := (·.setGlobal global)) fun _ _ => rfl)

theorem withSid (h : r.Twin r') (sid : String) : (r.withSid sid).Twin (r'.withSid sid) := by
  obtain ⟨hs⟩ := h
  exact .of (r := r.withSid sid) (hs.map (k := (·.setSid sid)) fun _ _ => rfl)

theorem restart (h : r.Twin r') (ev : Evaluator) (input : List Json) :
    TwinResult (r.restart ev input) (r'.restart ev input) := by
  obtain @⟨s, hs⟩ := h
  obtain ⟨output, hroot⟩ := hs.base
  have hpipe : Run.pipe { r with stack := s } = r.pipe.withOutput output :=
    congrArg Frame.pipe hroot
  have hfirst : Frame.root (r.pipe.withOutput output) r.global r.sid =
      (Frame.root r.pipe r.global r.sid).withOutput output := rfl
  simp only [Run.restart, hpipe, hfirst, Frame.bind_withOutput]
  cases (Frame.root r.pipe r.global r.sid).bind ev input with
  | error e => exact .error _
  | ok f => exact .ok (.of (r := { r with stack := .single f, paused := none }) (.root f output))

theorem pass (h : r.Twin r') (node : String) (output : Json) :
    TwinResult (r.pass node output) (r'.pass node output) := by
  obtain @⟨⟨top', below'⟩, hs⟩ := h
  obtain ⟨mapping, rfl⟩ := hs.top
  have hrecord : (r.stack.top.withOutput mapping).record node output =
      (r.stack.top.record node output).withOutput mapping := rfl
  simp only [Run.pass, hrecord, Frame.advance_withOutput]
  cases ha : (r.stack.top.record node output).advance with
  | error target => exact .error _
  | ok g =>
    have hpipe := Frame.pipe_advance ha
    exact .ok (.of (r := r.withTop g) (hs.replace hpipe))

theorem remember (h : r.Twin r') (m : PromptMemory) :
    Run.Twin { r with memory := m } { r' with memory := m } := by
  obtain ⟨hs⟩ := h
  exact .of hs

theorem pause (h : r.Twin r') (p : Option Snapshot) :
    Run.Twin { r with paused := p } { r' with paused := p } := by
  obtain ⟨hs⟩ := h
  exact .of hs

theorem enter (h : r.Twin r') (child : Frame) :
    Run.Twin { r with stack := r.stack.push child } { r' with stack := r'.stack.push child } := by
  obtain ⟨hs⟩ := h
  exact .of (r := { r with stack := r.stack.push child }) (.case child hs)

theorem mapOutput (h : r.Twin r') (ev : Evaluator) (n : Node Pipe) (raw : Json) :
    r'.mapOutput ev n raw = r.mapOutput ev n raw := by
  obtain @⟨⟨top', below'⟩, hs⟩ := h
  obtain ⟨mapping, rfl⟩ := hs.top
  rfl

theorem finish (h : r.Twin r') (ev : Evaluator) (n : Node Pipe) (raw : Json) :
    TwinResult
      (match r.mapOutput ev n raw with
        | .error e => .error e
        | .ok output => r.pass n.name output)
      (match r'.mapOutput ev n raw with
        | .error e => .error e
        | .ok output => r'.pass n.name output) := by
  rw [h.mapOutput]
  cases r.mapOutput ev n raw with
  | error e => exact .error e
  | ok output => exact h.pass n.name output

theorem answer (h : r.Twin r') (ev : Evaluator) (answers : List Json) :
    TwinResult (r.answer ev answers) (r'.answer ev answers) := by
  obtain @⟨⟨top', below'⟩, hs⟩ := h
  obtain ⟨mapping, rfl⟩ := hs.top
  have hcurrent : (r.stack.top.withOutput mapping).current? = r.stack.top.current? := rfl
  have hinput : (r.stack.top.withOutput mapping).input = r.stack.top.input := rfl
  simp only [Run.answer, hcurrent, hinput, Frame.bind_withOutput]
  cases r.stack.top.current? with
  | none => exact .error _
  | some n =>
    dsimp only
    cases hf : r.stack.top.bind ev (r.stack.top.input ++ answers) with
    | error e => exact .error _
    | ok f =>
      have hpipe : f.pipe = r.stack.top.pipe := by
        obtain ⟨data, rfl⟩ := Frame.bind_eq hf
        rfl
      have htwin : Run.Twin (Run.withTop { r with paused := none } f) _ := .of (hs.replace hpipe)
      exact htwin.finish ev n (answerValue answers)

theorem closeCase (h : r.Twin r') (ev : Evaluator) {parent parent' : Frame}
    {rest rest' : List Frame} (hb : r.stack.below = parent :: rest)
    (hb' : r'.stack.below = parent' :: rest') :
    TwinResult (r.closeCase ev parent rest) (r'.closeCase ev parent' rest') := by
  obtain ⟨id, sid, global, memory, ⟨top, below⟩, paused⟩ := r
  obtain @⟨⟨top', below'⟩, hs⟩ := h
  dsimp only at hb hb' hs
  subst hb hb'
  cases hs with
  | case _ hbelow =>
    obtain ⟨mapping, hparent⟩ := hbelow.top
    dsimp only at hparent
    subst hparent
    have hcurrent : (parent.withOutput mapping).current? = parent.current? := rfl
    have hjump : (parent.withOutput mapping).jump = parent.jump := rfl
    have hclose (below : List Frame) :
        Run.close ev ⟨id, sid, global, memory, ⟨top, below⟩, paused⟩ =
          Run.close ev ⟨id, sid, global, memory, ⟨top, parent :: rest⟩, paused⟩ := rfl
    simp only [Run.closeCase, hclose, hcurrent, hjump]
    cases Run.close ev ⟨id, sid, global, memory, ⟨top, parent :: rest⟩, paused⟩ with
    | error e => exact .error e
    | ok c =>
      have hjumping : Stack.Twin ⟨{ parent with jump := c.1.or parent.jump }, rest⟩ _ :=
        hbelow.replace rfl
      have htwin : Run.Twin ⟨id, sid, global, memory, _, paused⟩ _ := .of hjumping
      dsimp only
      cases parent.current? with
      | some n => exact htwin.pass n.name _
      | none =>
        have hsame : ({ parent.withOutput mapping with jump := c.1.or parent.jump } : Frame) =
            ({ parent with jump := c.1.or parent.jump } : Frame).withOutput mapping := rfl
        simp only [hsame, Frame.advance_withOutput]
        cases ha : Frame.advance { parent with jump := c.1.or parent.jump } with
        | error target => exact .error _
        | ok g =>
          have hpipe := Frame.pipe_advance ha
          exact .ok (.of (hjumping.replace hpipe))

end Twin

end Run

def Scene.withOutput (s : Scene σ) (output : Option Json) : Scene σ :=
  { s with run := s.run.withTop (s.run.stack.top.withOutput output) }

namespace Engine

variable (eng : Engine σ)

section

variable (s : Scene σ) (n : Node Pipe) (output : Option Json)

theorem finish_withOutput (answer : Except NodeError Json × σ) :
    eng.finish (s.withOutput output) n answer =
      ((eng.finish s n answer).1, (eng.finish s n answer).2.withOutput output) := by
  obtain ⟨answer, w⟩ := answer
  cases answer <;> rfl

theorem readReply_withOutput (answer : ChatReply × σ) :
    eng.readReply (s.withOutput output) n answer =
      ((eng.readReply s n answer).1, (eng.readReply s n answer).2.withOutput output) := by
  obtain ⟨⟨chunks, status⟩, w⟩ := answer
  cases status with
  | error e => rfl
  | ok raw =>
    simp only [readReply]
    split <;> rfl

theorem dispatchAi_withOutput (prompts : List Prompt) (model : String) (options : Json) :
    eng.dispatchAi (s.withOutput output) n prompts model options =
      ((eng.dispatchAi s n prompts model options).1,
        (eng.dispatchAi s n prompts model options).2.withOutput output) := by
  have hdata : (s.withOutput output).run.stack.top.dataValue = s.run.stack.top.dataValue := rfl
  simp only [dispatchAi, hdata]
  cases renderPrompts eng.evaluator s.run.stack.top.dataValue prompts with
  | error e => rfl
  | ok prompts =>
    cases eng.evaluator.resolve s.run.stack.top.dataValue options with
    | error e => rfl
    | ok options =>
      let memory := s.run.memory.merge (PromptMemory.key s.run.stack.top.pipe.id n.name) prompts
      exact eng.readReply_withOutput ⟨{ s.run with memory := memory }, s.world⟩ n output _

theorem dispatchUserInput_withOutput (ui : UiKind) (autofill : Option String) :
    eng.dispatchUserInput (s.withOutput output) n ui autofill =
      ((eng.dispatchUserInput s n ui autofill).1,
        (eng.dispatchUserInput s n ui autofill).2.withOutput output) := by
  have hdata : (s.withOutput output).run.stack.top.data = s.run.stack.top.data := rfl
  have hvalue : (s.withOutput output).run.stack.top.dataValue = s.run.stack.top.dataValue := rfl
  simp only [dispatchUserInput, hdata, hvalue]
  cases eng.boundInput s.run.stack.top.data n with
  | error e => rfl
  | ok bound =>
    cases ui.isInteractive with
    | false => rfl
    | true =>
      cases eng.seed s.run.stack.top.dataValue autofill with
      | error e => rfl
      | ok seed => exact eng.finish_withOutput s n output _

/-- A node does not see the output mapping of the pipe that it is in. -/
theorem dispatch_withOutput :
    eng.dispatch (s.withOutput output) n =
      ((eng.dispatch s n).1, (eng.dispatch s n).2.withOutput output) := by
  have hdata : (s.withOutput output).run.stack.top.dataValue = s.run.stack.top.dataValue := rfl
  cases hk : n.kind with
  | process name args =>
    simp only [dispatch, hk, hdata]
    cases eng.evaluator.resolve s.run.stack.top.dataValue args with
    | error e => rfl
    | ok args => exact eng.finish_withOutput s n output _
  | request payload =>
    simp only [dispatch, hk, hdata]
    cases eng.evaluator.resolve s.run.stack.top.dataValue payload with
    | error e => rfl
    | ok payload => exact eng.finish_withOutput s n output _
  | ai prompts model options =>
    simp only [dispatch, hk]
    exact eng.dispatchAi_withOutput s n output prompts model options
  | switch cases =>
    simp only [dispatch, hk]
    rfl
  | userInput ui autofill =>
    simp only [dispatch, hk]
    exact eng.dispatchUserInput_withOutput s n output ui autofill

end

theorem dispatch_twin {r r' : Run} (h : r.Twin r') (w : σ) (n : Node Pipe) :
    ∃ m, (eng.dispatch ⟨r, w⟩ n).2.run = { r with memory := m } ∧
      eng.dispatch ⟨r', w⟩ n = ((eng.dispatch ⟨r, w⟩ n).1,
        ⟨{ r' with memory := m }, (eng.dispatch ⟨r, w⟩ n).2.world⟩) := by
  obtain @⟨⟨top', below'⟩, hs⟩ := h
  obtain ⟨output, rfl⟩ := hs.top
  obtain ⟨m, hm⟩ := eng.dispatch_run ⟨r, w⟩ n
  -- The innermost frames may differ in the mapping, and the frames below as well; a node sees
  -- neither.
  have hover := eng.dispatch_over (Scene.withOutput ⟨r, w⟩ output) n below' r.paused
  rw [eng.dispatch_withOutput] at hover
  refine ⟨m, hm, hover.trans ?_⟩
  simp only [Scene.withOutput, hm]
  rfl

end Engine

inductive Turn.Twin (ev : Evaluator) : Turn σ → Turn σ → Prop
  | more {r r' : Run} (w : σ) (left : Nat) : r.Twin r' →
      Twin ev (.more ⟨⟨r, w⟩, left⟩) (.more ⟨⟨r', w⟩, left⟩)
  | done {r r' : Run} (w : σ) {result result' : Except RunError Ending} : r.Twin r' →
      r.EndsAlike ev result result' → Twin ev (.done result ⟨r, w⟩) (.done result' ⟨r', w⟩)

namespace Engine

variable (eng : Engine σ)

theorem runNode_twin {r r' : Run} (h : r.Twin r') (w : σ) (n : Node Pipe) (left : Nat) :
    Turn.Twin eng.evaluator (eng.runNode ⟨r, w⟩ n left) (eng.runNode ⟨r', w⟩ n left) := by
  obtain ⟨m, hm, hd⟩ := eng.dispatch_twin h w n
  have htwin := h.remember m
  unfold runNode
  rw [hd]
  generalize eng.dispatch ⟨r, w⟩ n = d at hm
  obtain ⟨step, run, v⟩ := d
  dsimp only at hm
  subst hm
  cases step with
  | error e => exact .done v htwin (.same _)
  | ok step =>
    cases step with
    | advance output =>
      have hpass := htwin.pass n.name output
      dsimp only
      generalize Run.pass _ n.name output = passed at hpass ⊢
      generalize Run.pass _ n.name output = passed' at hpass ⊢
      cases hpass with
      | error e => exact .done v htwin (.same _)
      | ok hnext => exact .more v left hnext
    | enter child => exact .more v left (htwin.enter child)
    | suspend snapshot => exact .done v (htwin.pause (some snapshot)) (.same _)

theorem turn_through {r : Run} (h : r.Through eng.evaluator none) {token : Option String} {w : σ}
    (hc : eng.isCancelled token w = false) (left : Nat) :
    ∃ result, eng.turn token ⟨⟨r, w⟩, left⟩ = .done result ⟨r, w⟩ ∧ r.Final result := by
  have hgoto := h.goto
  rw [eng.turn_root (s := ⟨r, w⟩) hc h.current h.below]
  simp only [Run.closeRoot, Run.close, hgoto]
  cases r.stack.top.pipe.output with
  | none => exact ⟨_, rfl, .inl ⟨_, rfl⟩⟩
  | some spec =>
    dsimp only
    cases eng.evaluator.resolve r.stack.top.dataValue spec with
    | error x => exact ⟨_, rfl, .inr ⟨x, rfl⟩⟩
    | ok value => exact ⟨_, rfl, .inl ⟨value, rfl⟩⟩

theorem turn_again {r : Run} {target : String} (h : r.Through eng.evaluator (some target))
    (ho : ¬ r.OutputFails eng.evaluator) {token : Option String} {w : σ}
    (hc : eng.isCancelled token w = false) (left : Nat) :
    eng.turn token ⟨⟨r, w⟩, left⟩ = match r.stack.top.pipe.indexOf? target with
      | some i => .more ⟨⟨r.withTop { r.stack.top with cursor := i }, w⟩, left⟩
      | none => .done (.error (.gotoTargetNotFound r.stack.top.pipe.id target r.id)) ⟨r, w⟩ := by
  have hgoto := h.goto
  rw [eng.turn_root (s := ⟨r, w⟩) hc h.current h.below]
  have hclose : ∃ output, r.close eng.evaluator = .ok (some target, output) := by
    simp only [Run.close, hgoto]
    cases hspec : r.stack.top.pipe.output with
    | none => exact ⟨none, rfl⟩
    | some spec =>
      dsimp only
      cases hr : eng.evaluator.resolve r.stack.top.dataValue spec with
      | error x => exact absurd ⟨spec, x, hspec, hr⟩ ho
      | ok value => exact ⟨some value, rfl⟩
  obtain ⟨output, hclose⟩ := hclose
  simp only [Run.closeRoot, hclose]
  cases r.stack.top.pipe.indexOf? target <;> rfl

theorem turn_unresolved {r : Run} (hn : r.current? = none) (hb : r.stack.below = []) {x : NodeError}
    (hx : eng.evaluator.resolveGoto r.stack.top.pipe.goto r.stack.top.dataValue = .error x)
    {token : Option String} {w : σ} (hc : eng.isCancelled token w = false) (left : Nat) :
    eng.turn token ⟨⟨r, w⟩, left⟩ =
      .done (.error (.mapping r.stack.top.pipe.id r.id x)) ⟨r, w⟩ := by
  rw [eng.turn_root (s := ⟨r, w⟩) hc hn hb]
  simp only [Run.closeRoot, Run.close, hx]

theorem turn_root_twin {f : Frame} {output : Option Json} {r r' : Run}
    (hr : r.stack = ⟨f, []⟩) (hr' : r' = { r with stack := ⟨f.withOutput output, []⟩ })
    (hn : f.current? = none) {token : Option String} {w : σ}
    (hc : eng.isCancelled token w = false) (left : Nat) :
    Turn.Twin eng.evaluator (eng.turn token ⟨⟨r, w⟩, left⟩) (eng.turn token ⟨⟨r', w⟩, left⟩) ∨
      r.Parts eng.evaluator r' := by
  obtain ⟨id, sid, global, memory, stack, paused⟩ := r
  dsimp only at hr hr'
  subst hr hr'
  have htwin : Run.Twin ⟨id, sid, global, memory, ⟨f, []⟩, paused⟩ _ := .of (.root f output)
  cases hg : eng.evaluator.resolveGoto f.pipe.goto f.dataValue with
  | error x =>
    have ht (o : Option Json) := eng.turn_unresolved
      (r := ⟨id, sid, global, memory, ⟨f.withOutput o, []⟩, paused⟩) (x := x) hn rfl hg hc left
    have ht' := ht f.pipe.output
    rw [f.withOutput_self] at ht'
    rw [ht', ht]
    exact .inl (.done w htwin (.same _))
  | ok goto =>
    -- The jump is the same, but the output mapping is resolved before it is followed.
    have hthrough (o : Option Json) : Run.Through eng.evaluator
        ⟨id, sid, global, memory, ⟨f.withOutput o, []⟩, paused⟩ goto := ⟨rfl, hn, hg⟩
    cases goto with
    | none =>
      obtain ⟨result, ht, hfinal⟩ := eng.turn_through (hthrough f.pipe.output) hc left
      obtain ⟨result', ht', hfinal'⟩ := eng.turn_through (hthrough output) hc left
      rw [f.withOutput_self] at ht hfinal
      rw [ht, ht']
      exact .inl (.done w htwin (.final ⟨rfl, hn, hg⟩ hfinal hfinal'))
    | some target =>
      by_cases hfails : Run.OutputFails eng.evaluator ⟨id, sid, global, memory, ⟨f, []⟩, paused⟩ ∨
          Run.OutputFails eng.evaluator
            ⟨id, sid, global, memory, ⟨f.withOutput output, []⟩, paused⟩
      · exact .inr ⟨target, ⟨rfl, hn, hg⟩, hfails⟩
      · obtain ⟨ho, ho'⟩ := not_or.mp hfails
        have hthrough' := hthrough f.pipe.output
        rw [f.withOutput_self] at hthrough'
        rw [eng.turn_again hthrough' ho hc, eng.turn_again (hthrough output) ho' hc]
        have hindex : (f.withOutput output).pipe.indexOf? target = f.pipe.indexOf? target := rfl
        simp only [hindex]
        cases f.pipe.indexOf? target with
        | none => exact .inl (.done w htwin (.same _))
        | some i => exact .inl (.more w left (.of (.root { f with cursor := i } output)))

theorem turn_case_twin {r r' : Run} (h : r.Twin r') (hn : r.current? = none)
    {parent parent' : Frame} {rest rest' : List Frame} (hb : r.stack.below = parent :: rest)
    (hb' : r'.stack.below = parent' :: rest') {token : Option String} {w : σ}
    (hc : eng.isCancelled token w = false) (left : Nat) :
    Turn.Twin eng.evaluator (eng.turn token ⟨⟨r, w⟩, left⟩)
      (eng.turn token ⟨⟨r', w⟩, left⟩) := by
  have hclose := h.closeCase eng.evaluator hb hb'
  rw [eng.turn_case (s := ⟨r, w⟩) hc hn hb,
    eng.turn_case (s := ⟨r', w⟩) hc (h.current.trans hn) hb']
  dsimp only
  generalize r.closeCase eng.evaluator parent rest = closed at hclose ⊢
  generalize r'.closeCase eng.evaluator parent' rest' = closed' at hclose ⊢
  cases hclose with
  | error e => exact .done w h (.same _)
  | ok hnext => exact .more w left hnext

/-- The turns of twins go alike, except where one of the two would run the first pipe again but for
its output mapping. -/
theorem turn_twin {r r' : Run} (h : r.Twin r') (token : Option String) (w : σ) (left : Nat) :
    Turn.Twin eng.evaluator (eng.turn token ⟨⟨r, w⟩, left⟩) (eng.turn token ⟨⟨r', w⟩, left⟩) ∨
      r.Parts eng.evaluator r' := by
  cases hc : eng.isCancelled token w with
  | true =>
    rw [eng.turn_cancelled (s := ⟨r, w⟩) hc, eng.turn_cancelled (s := ⟨r', w⟩) hc, h.id]
    exact .inl (.done w h (.same _))
  | false =>
    cases hn : r.current? with
    | some n =>
      have hn' := h.current.trans hn
      cases left with
      | zero =>
        rw [eng.turn_exhausted (s := ⟨r, w⟩) hc hn, eng.turn_exhausted (s := ⟨r', w⟩) hc hn', h.id]
        exact .inl (.done w h (.same _))
      | succ left =>
        rw [eng.turn_node (s := ⟨r, w⟩) hc hn, eng.turn_node (s := ⟨r', w⟩) hc hn']
        exact .inl (eng.runNode_twin h w n left)
    | none =>
      have hn' := h.current.trans hn
      obtain ⟨id, sid, global, memory, ⟨top, below⟩, paused⟩ := r
      obtain ⟨hs⟩ := h
      cases hs with
      | root _ output => exact eng.turn_root_twin rfl rfl hn hc left
      | case _ hbelow => exact .inl (eng.turn_case_twin (.of (.case top hbelow)) hn rfl rfl hc left)

end Engine

end Pipework
