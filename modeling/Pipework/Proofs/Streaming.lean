import Pipework.Proofs.Calls
import Pipework.Proofs.Passing
import Pipework.Proofs.Unhooked

/-!
# Replies in pieces

Two engines stream alike when their services give the same answers in related worlds, except that a
reply may come in other pieces, and when hooks lead from related worlds to related worlds whichever
engine has started them. Turns on runs that are the same without their hooks then go alike.
-/

namespace Pipework

variable {σ τ : Type}

structure SameReply (R : σ → τ → Prop) (p : ChatReply × σ) (q : ChatReply × τ) : Prop where
  text : String.join p.1.chunks = String.join q.1.chunks
  status : p.1.status = q.1.status
  world : R p.2 q.2

structure Names where
  process : String → Prop
  hook : String → Prop
  token : String → Prop

/-- What two engines have in common that differ in the pieces of replies and in hooks. A hook may
change whatever the processes of nodes, the other services and the tokens of attempts do not depend
on. Of the clocks only that is compared which `d` leaves of them. -/
structure Engine.Streams (eng : Engine σ) (eng' : Engine τ) (names names' : Names)
    (d : Instant → Instant) (R : σ → τ → Prop) : Prop where
  evaluator : eng'.evaluator = eng.evaluator
  maxSteps : eng'.settings.maxSteps = eng.settings.maxSteps
  process {w : σ} {v : τ} (hw : R w v) {name : String} (hname : names.process name) (args : Json)
    (c : CallContext) :
    SameAnswer R (eng.services.process name args c w) (eng'.services.process name args c v)
  request {w : σ} {v : τ} (hw : R w v) (payload : Json) (c : CallContext) :
    SameAnswer R (eng.services.request payload c w) (eng'.services.request payload c v)
  chat {w : σ} {v : τ} (hw : R w v) (r : ChatRequest) (c : CallContext) :
    SameReply R (eng.services.chat r c w) (eng'.services.chat r c v)
  render {w : σ} {v : τ} (hw : R w v) (r : RenderRequest) :
    SameAnswer R (eng.services.render r w) (eng'.services.render r v)
  hook {w : σ} {v : τ} (hw : R w v) {call : HookCall} (hname : names.hook call.name) :
    R (eng.services.notify call w) v
  hook' {w : σ} {v : τ} (hw : R w v) {call : HookCall} (hname : names'.hook call.name) :
    R w (eng'.services.notify call v)
  isCancelled {w : σ} {v : τ} (hw : R w v) {token : String} (htoken : names.token token) :
    eng.services.isCancelled token w = eng'.services.isCancelled token v
  now {w : σ} {v : τ} (hw : R w v) : d (eng.services.now w) = d (eng'.services.now v)

structure Names.Cover (names : Names) (r : Run) : Prop where
  process {n : Node Pipe} {name : String} {args : Json} (hn : r.current? = some n)
    (hk : n.kind = .process name args) : names.process name
  hook {name : String} (hp : r.stack.top.pipe.progress = some name) : names.hook name

def Step.bare (d : Instant → Instant) : Step → Step
  | .advance output => .advance output
  | .enter child => .enter child.bare
  | .suspend snapshot => .suspend (snapshot.redate d)

structure Scene.Even (d : Instant → Instant) (R : σ → τ → Prop) (s : Scene σ) (s' : Scene τ) :
    Prop where
  run : s.run.bare d = s'.run.bare d
  world : R s.world s'.world

structure EvenStep (d : Instant → Instant) (R : σ → τ → Prop)
    (p : Except RunError Step × Scene σ) (q : Except RunError Step × Scene τ) : Prop where
  step : p.1.map (Step.bare d) = q.1.map (Step.bare d)
  scene : p.2.Even d R q.2

inductive Turn.Even (d : Instant → Instant) (R : σ → τ → Prop) : Turn σ → Turn τ → Prop
  | more {s : Scene σ} {s' : Scene τ} (left : Nat) : s.Even d R s' →
      Turn.Even d R (.more ⟨s, left⟩) (.more ⟨s', left⟩)
  | done {result result' : Except RunError Ending} {s : Scene σ} {s' : Scene τ} :
      result.map (Ending.redate d) = result'.map (Ending.redate d) → s.Even d R s' →
      Turn.Even d R (.done result s) (.done result' s')

namespace NodeKind

theorem of_unhooked {kind kind' : NodeKind Pipe} (h : kind.unhooked = kind'.unhooked) :
    kind = kind' ∨ ∃ cases cases', kind = .switch cases ∧ kind' = .switch cases' ∧
      cases.map Case.unhooked = cases'.map Case.unhooked := by
  cases kind with
  | switch cases => cases kind' with
    | switch cases' =>
      rw [unhooked_switch, unhooked_switch] at h
      exact .inr ⟨cases, cases', rfl, rfl, NodeKind.switch.inj h⟩
    | process | ai | request | userInput => cases h
  | process | ai | request | userInput => cases kind' with
    | switch => cases h
    | process | ai | request | userInput => exact .inl h

end NodeKind

section

variable {d : Instant → Instant} {r r' : Run} {n n' : Node Pipe}

theorem Run.current_even (h : r.bare d = r'.bare d) :
    r.current?.map Node.unhooked = r'.current?.map Node.unhooked := by
  rw [Run.current?, Run.current?, ← Frame.current?_bare, ← Frame.current?_bare]
  exact congrArg (fun r => r.stack.top.current?) h

theorem Node.name_even (hn : n.unhooked = n'.unhooked) : n.name = n'.name := by
  simpa using congrArg Node.name hn

variable (h : r.bare d = r'.bare d) (hn : n.unhooked = n'.unhooked)
include h

theorem Run.dataValue_even : r.stack.top.dataValue = r'.stack.top.dataValue :=
  congrArg (fun r => r.stack.top.dataValue) h

theorem Run.id_even : r.id = r'.id := congrArg (fun r => r.id) h

theorem Run.memory_even : r.memory = r'.memory := congrArg (fun r => r.memory) h

theorem Run.pipeId_even : r.stack.top.pipe.id = r'.stack.top.pipe.id := by
  have hid := congrArg (fun r => r.stack.top.pipe.id) h
  simpa using hid

include hn

theorem Run.nodeError_even : r.nodeError n = r'.nodeError n' := by
  funext e
  rw [← r.nodeError_bare d, h, hn, nodeError_bare]

theorem Run.callContext_even : r.callContext n = r'.callContext n' := by
  rw [← r.callContext_bare d, h, hn, callContext_bare]

theorem Run.mapOutput_even (ev : Evaluator) (raw : Json) :
    r.mapOutput ev n raw = r'.mapOutput ev n' raw := by
  rw [← r.mapOutput_bare d, h, hn, mapOutput_bare]

end

theorem Scene.Even.moved {d : Instant → Instant} {R : σ → τ → Prop} {s : Scene σ} {s' : Scene τ}
    (hs : s.Even d R s') {w : σ} {v : τ} (hw : R w v) :
    Scene.Even d R { s with world := w } { s' with world := v } := ⟨hs.run, hw⟩

theorem Scene.Even.failed {d : Instant → Instant} {R : σ → τ → Prop} {s : Scene σ} {s' : Scene τ}
    {n n' : Node Pipe} (hs : s.Even d R s') (hn : n.unhooked = n'.unhooked) (e : NodeError) :
    EvenStep d R (.error (s.run.nodeError n e), s) (.error (s'.run.nodeError n' e), s') :=
  ⟨by rw [Run.nodeError_even hs.run hn], hs⟩

namespace Engine

variable {eng : Engine σ} {eng' : Engine τ} {names names' : Names} {d : Instant → Instant}
  {R : σ → τ → Prop}

theorem notifyAll_even (h : eng.Streams eng' names names' d R) {progress progress' : Option String}
    (hp : ∀ name, progress = some name → names.hook name)
    (hp' : ∀ name, progress' = some name → names'.hook name) (c c' : CallContext)
    (chunks chunks' : List String) {w : σ} {v : τ} (hw : R w v) :
    R (eng.notifyAll progress c chunks w) (eng'.notifyAll progress' c' chunks' v) := by
  have hright : R w (eng'.notifyAll progress' c' chunks' v) :=
    eng'.notifyAll_keeps (P := R w) c' chunks' (fun _ hname _ _ hv => h.hook' hv (hp' _ hname)) hw
  exact eng.notifyAll_keeps (P := (R · _)) c chunks (fun _ hname _ _ hv => h.hook hv (hp _ hname))
    hright

section

variable (h : eng.Streams eng' names names' d R) {s : Scene σ} {s' : Scene τ} {n n' : Node Pipe}
  (hs : s.Even d R s') (hn : n.unhooked = n'.unhooked)
include h hs hn

theorem finish_even {p : Except NodeError Json × σ} {q : Except NodeError Json × τ}
    (hpq : SameAnswer R p q) : EvenStep d R (eng.finish s n p) (eng'.finish s' n' q) := by
  obtain ⟨answer, w⟩ := p
  obtain ⟨answer', v⟩ := q
  obtain ⟨rfl, hw⟩ := hpq
  have hanswered := hs.moved hw
  cases answer with
  | error e => exact hanswered.failed hn e
  | ok raw =>
    refine ⟨?_, hanswered⟩
    simp only [finish, Run.mapOutput_even hs.run hn, h.evaluator]

theorem readReply_even (hcover : names.Cover s.run) (hcover' : names'.Cover s'.run)
    {p : ChatReply × σ} {q : ChatReply × τ} (hpq : SameReply R p q) :
    EvenStep d R (eng.readReply s n p) (eng'.readReply s' n' q) := by
  obtain ⟨⟨chunks, status⟩, w⟩ := p
  obtain ⟨⟨chunks', status'⟩, v⟩ := q
  obtain ⟨htext, rfl, hw⟩ := hpq
  have hanswered := hs.moved (notifyAll_even h (fun _ => hcover.hook) (fun _ => hcover'.hook)
    (s.run.callContext n) (s'.run.callContext n') chunks chunks' hw)
  have hindex : n.index = n'.index := by simpa using congrArg Node.index hn
  dsimp only at htext
  cases status with
  | error e => exact hanswered.failed hn e
  | ok raw =>
    simp only [readReply, htext]
    split
    · refine ⟨?_, hanswered⟩
      simp only [Run.pipeId_even hs.run, hindex, Node.name_even hn, Run.id_even hs.run]
    · refine ⟨?_, hanswered⟩
      simp only [Run.mapOutput_even hs.run hn, h.evaluator]

theorem dispatchAi_even (hcover : names.Cover s.run) (hcover' : names'.Cover s'.run)
    (prompts : List Prompt) (model : String) (options : Json) :
    EvenStep d R (eng.dispatchAi s n prompts model options)
      (eng'.dispatchAi s' n' prompts model options) := by
  simp only [dispatchAi, h.evaluator, Run.dataValue_even hs.run, Run.pipeId_even hs.run,
    Node.name_even hn, Run.memory_even hs.run]
  cases renderPrompts eng.evaluator s'.run.stack.top.dataValue prompts with
  | error e => exact hs.failed hn e
  | ok prompts =>
    dsimp only
    generalize s'.run.memory.merge _ prompts = m
    have hmerged : Scene.Even d R ⟨{ s.run with memory := m }, s.world⟩
        ⟨{ s'.run with memory := m }, s'.world⟩ :=
      ⟨congrArg (fun r => { r with memory := m }) hs.run, hs.world⟩
    cases eng.evaluator.resolve s'.run.stack.top.dataValue options with
    | error e => exact hmerged.failed hn e
    | ok options =>
      dsimp only
      rw [Run.callContext_even hmerged.run hn]
      exact readReply_even h hmerged hn ⟨hcover.process, hcover.hook⟩
        ⟨hcover'.process, hcover'.hook⟩ (h.chat hs.world _ _)

theorem dispatchSwitch_even {cases cases' : List (Case Pipe)}
    (hcases : cases.map Case.unhooked = cases'.map Case.unhooked) :
    (eng.dispatchSwitch s n cases).map (Step.bare d) =
      (eng'.dispatchSwitch s' n' cases').map (Step.bare d) := by
  have hselect : (selectCase eng.evaluator s'.run.stack.top.dataValue none cases).map
      (·.map Case.unhooked) =
      (selectCase eng.evaluator s'.run.stack.top.dataValue none cases').map
        (·.map Case.unhooked) := by
    rw [← selectCase_unhooked, ← selectCase_unhooked, hcases]
  have htop : s.run.stack.top.bare = s'.run.stack.top.bare :=
    congrArg (fun r => r.stack.top) hs.run
  simp only [dispatchSwitch, h.evaluator, Run.dataValue_even hs.run, Run.pipeId_even hs.run,
    Node.name_even hn, Run.id_even hs.run]
  obtain ⟨e, he, he'⟩ | ⟨found, found', hf, hf', hfound⟩ := map_eq_map hselect
  · rw [he, he']
    simp only [Run.nodeError_even hs.run hn]
  · rw [hf, hf']
    cases found with
    | none => cases found' with
      | none => rfl
      | some => cases hfound
    | some c => cases found' with
      | none => cases hfound
      | some c' =>
        have hpipe : c.pipe.unhooked = c'.pipe.unhooked :=
          congrArg Case.pipe (Option.some.inj hfound)
        have hchild : (Frame.child eng.evaluator c.pipe s.run.stack.top).map Frame.bare =
            (Frame.child eng.evaluator c'.pipe s'.run.stack.top).map Frame.bare := by
          rw [← Frame.child_bare, ← Frame.child_bare, hpipe, htop]
        dsimp only
        obtain ⟨e, he, he'⟩ | ⟨child, child', hc, hc', hbare⟩ := map_eq_map hchild
        · rw [he, he']
          simp only [Except.mapError, Run.nodeError_even hs.run hn]
        · rw [hc, hc']
          simp only [Except.mapError, Except.map, Step.bare, hbare]

theorem dispatchUserInput_even (ui : UiKind) (autofill : Option String)
    (hkind : n.kind = n'.kind) :
    EvenStep d R (eng.dispatchUserInput s n ui autofill)
      (eng'.dispatchUserInput s' n' ui autofill) := by
  have hlabel : n.label = n'.label := by simpa using congrArg Node.label hn
  have hinput : n.input = n'.input := by simpa using congrArg Node.input hn
  have hdata : s.run.stack.top.data = s'.run.stack.top.data :=
    congrArg (fun r => r.stack.top.data) hs.run
  have hbound : eng.boundInput s.run.stack.top.data n =
      eng'.boundInput s'.run.stack.top.data n' := by
    simp only [boundInput, h.evaluator, hdata, hinput]
  have hseed : eng.seed s.run.stack.top.dataValue autofill =
      eng'.seed s'.run.stack.top.dataValue autofill := by
    simp only [seed, h.evaluator, Run.dataValue_even hs.run]
  simp only [dispatchUserInput, hbound, hseed]
  cases eng'.boundInput s'.run.stack.top.data n' with
  | error e => exact hs.failed hn e
  | ok bound =>
    cases ui.isInteractive with
    | false =>
      have hanswers : s.run.stack.top.input = s'.run.stack.top.input :=
        congrArg (fun r => r.stack.top.input) hs.run
      refine ⟨?_, hs⟩
      simp [Except.map, Step.bare, Snapshot.redate, Run.id_even hs.run, hanswers,
        Node.name_even hn, hlabel, hkind, h.now hs.world]
    | true =>
      cases eng'.seed s'.run.stack.top.dataValue autofill with
      | error e => exact hs.failed hn e
      | ok seed =>
        obtain ⟨ha, hw⟩ := h.render hs.world ⟨n'.name, n'.label, bound, seed⟩
        simp only [Node.name_even hn, hlabel]
        exact finish_even h hs hn ⟨by rw [ha], hw⟩

theorem dispatch_even (hcurrent : s.run.current? = some n) (hcover : names.Cover s.run)
    (hcover' : names'.Cover s'.run) : EvenStep d R (eng.dispatch s n) (eng'.dispatch s' n') := by
  have hkinds : n.kind.unhooked = n'.kind.unhooked := by simpa using congrArg Node.kind hn
  have hdata := Run.dataValue_even hs.run
  have hcontext := Run.callContext_even hs.run hn
  obtain hkind | ⟨cases, cases', hk, hk', hcases⟩ := NodeKind.of_unhooked hkinds
  · cases hk : n.kind with
    | process name args =>
      simp only [dispatch, hk, ← hkind, h.evaluator, hdata, hcontext]
      cases eng.evaluator.resolve s'.run.stack.top.dataValue args with
      | error e => exact hs.failed hn e
      | ok args =>
        exact finish_even h hs hn (h.process hs.world (hcover.process hcurrent hk) args _)
    | request payload =>
      simp only [dispatch, hk, ← hkind, h.evaluator, hdata, hcontext]
      cases eng.evaluator.resolve s'.run.stack.top.dataValue payload with
      | error e => exact hs.failed hn e
      | ok payload => exact finish_even h hs hn (h.request hs.world payload _)
    | ai prompts model options =>
      simp only [dispatch, hk, ← hkind]
      exact dispatchAi_even h hs hn hcover hcover' prompts model options
    | switch cases =>
      simp only [dispatch, hk, ← hkind]
      exact ⟨dispatchSwitch_even h hs hn rfl, hs⟩
    | userInput ui autofill =>
      simp only [dispatch, hk, ← hkind]
      exact dispatchUserInput_even h hs hn ui autofill hkind
  · simp only [dispatch, hk, hk']
    exact ⟨dispatchSwitch_even h hs hn hcases, hs⟩

theorem runNode_even (hcurrent : s.run.current? = some n) (hcover : names.Cover s.run)
    (hcover' : names'.Cover s'.run) (left : Nat) :
    Turn.Even d R (eng.runNode s n left) (eng'.runNode s' n' left) := by
  have heven := dispatch_even h hs hn hcurrent hcover hcover'
  unfold runNode
  generalize eng.dispatch s n = p at heven ⊢
  generalize eng'.dispatch s' n' = q at heven ⊢
  obtain ⟨step, t⟩ := p
  obtain ⟨step', t'⟩ := q
  obtain ⟨hstep, hrun, hworld⟩ := heven
  obtain ⟨e, rfl, rfl⟩ | ⟨a, b, rfl, rfl, hab⟩ := map_eq_map hstep
  · exact .done rfl ⟨hrun, hworld⟩
  · cases a with
    | advance output => cases b with
      | advance output' =>
        cases hab
        have hpass : (t.run.pass n.name output).map (Run.bare d) =
            (t'.run.pass n'.name output).map (Run.bare d) := by
          rw [← Run.pass_bare, ← Run.pass_bare, hrun, Node.name_even hn]
        dsimp only
        obtain ⟨e, he, he'⟩ | ⟨r, r', hr, hr', hbare⟩ := map_eq_map hpass
        · rw [he, he']
          exact .done rfl ⟨hrun, hworld⟩
        · rw [hr, hr']
          exact .more left ⟨hbare, hworld⟩
      | enter | suspend => cases hab
    | enter child => cases b with
      | enter child' =>
        have hchild : child.bare = child'.bare := Step.enter.inj hab
        have hpush : ({ t.run with stack := t.run.stack.push child } : Run).bare d =
            ({ t'.run with stack := t'.run.stack.push child' } : Run).bare d := by
          rw [Run.push_bare, Run.push_bare, hrun, hchild]
        exact .more left ⟨hpush, hworld⟩
      | advance | suspend => cases hab
    | suspend x => cases b with
      | suspend y =>
        have hxy : x.redate d = y.redate d := Step.suspend.inj hab
        refine .done ?_ ⟨?_, hworld⟩
        · simp only [Except.map, Ending.redate, hxy]
        · rw [Run.pause_bare, Run.pause_bare, hrun, hxy]
      | advance | enter => cases hab

end

section

variable (h : eng.Streams eng' names names' d R) {s : Scene σ} {s' : Scene τ}
  (hs : s.Even d R s')
include h hs

theorem closed_root_even (left : Nat) :
    Turn.Even d R
      (match s.run.closeRoot eng.evaluator with
        | .ok (.inl run) => .more ⟨{ s with run := run }, left⟩
        | .ok (.inr value) => .done (.ok (.completed value)) s
        | .error e => .done (.error e) s)
      (match s'.run.closeRoot eng'.evaluator with
        | .ok (.inl run) => .more ⟨{ s' with run := run }, left⟩
        | .ok (.inr value) => .done (.ok (.completed value)) s'
        | .error e => .done (.error e) s') := by
  have hclose : (s.run.closeRoot eng.evaluator).map (Sum.map (Run.bare d) fun value => value) =
      (s'.run.closeRoot eng'.evaluator).map (Sum.map (Run.bare d) fun value => value) := by
    rw [← Run.closeRoot_bare, ← Run.closeRoot_bare, hs.run, h.evaluator]
  obtain ⟨e, he, he'⟩ | ⟨a, b, ha, hb, hab⟩ := map_eq_map hclose
  · rw [he, he']
    exact .done rfl hs
  · rw [ha, hb]
    cases a with
    | inl run => cases b with
      | inl run' => exact .more left ⟨Sum.inl.inj hab, hs.world⟩
      | inr value => cases hab
    | inr value => cases b with
      | inl run => cases hab
      | inr value' =>
        cases hab
        exact .done rfl hs

theorem turn_even {token : Option String} (htoken : ∀ t, token = some t → names.token t)
    (hcover : names.Cover s.run) (hcover' : names'.Cover s'.run) (left : Nat) :
    Turn.Even d R (eng.turn token ⟨s, left⟩) (eng'.turn token ⟨s', left⟩) := by
  have hid := Run.id_even hs.run
  have hcurrent := Run.current_even hs.run
  have hbelow : s.run.stack.below.map Frame.bare = s'.run.stack.below.map Frame.bare :=
    congrArg (fun r => r.stack.below) hs.run
  have hcancel : eng.isCancelled token s.world = eng'.isCancelled token s'.world := by
    cases token with
    | none => rfl
    | some t => exact h.isCancelled hs.world (htoken t rfl)
  cases hc : eng.isCancelled token s.world with
  | true =>
    rw [eng.turn_cancelled hc, eng'.turn_cancelled (hcancel.symm.trans hc), hid]
    exact .done rfl hs
  | false =>
    have hc' := hcancel.symm.trans hc
    cases hn : s.run.stack.top.current? with
    | some n =>
      rw [Run.current?, hn] at hcurrent
      obtain ⟨n', hn', hbare⟩ := Option.map_eq_some_iff.mp hcurrent.symm
      cases left with
      | zero =>
        rw [eng.turn_exhausted hc hn, eng'.turn_exhausted hc' hn', hid, h.maxSteps]
        exact .done rfl hs
      | succ left =>
        rw [eng.turn_node hc hn, eng'.turn_node hc' hn']
        exact runNode_even h hs hbare.symm hn hcover hcover' left
    | none =>
      rw [Run.current?, hn] at hcurrent
      have hn' : s'.run.stack.top.current? = none := Option.map_eq_none_iff.mp hcurrent.symm
      cases hb : s.run.stack.below with
      | nil =>
        rw [hb] at hbelow
        have hb' : s'.run.stack.below = [] := List.map_eq_nil_iff.mp hbelow.symm
        rw [eng.turn_root hc hn hb, eng'.turn_root hc' hn' hb']
        exact closed_root_even h hs left
      | cons parent rest =>
        rw [hb] at hbelow
        obtain ⟨parent', rest', hb', hparent, hrest⟩ := List.map_eq_cons_iff.mp hbelow.symm
        have hclose : (s.run.closeCase eng.evaluator parent rest).map (Run.bare d) =
            (s'.run.closeCase eng'.evaluator parent' rest').map (Run.bare d) := by
          rw [← Run.closeCase_bare, ← Run.closeCase_bare, hs.run, hparent, hrest, h.evaluator]
        rw [eng.turn_case hc hn hb, eng'.turn_case hc' hn' hb']
        obtain ⟨e, he, he'⟩ | ⟨run, run', hr, hr', hbare⟩ := map_eq_map hclose
        · rw [he, he']
          exact .done rfl hs
        · rw [hr, hr']
          exact .more left ⟨hbare, hs.world⟩

end

end Engine

end Pipework
