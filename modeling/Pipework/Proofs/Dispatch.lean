import Pipework.Run.Attempt

/-!
# Nodes run alike in worlds that agree

Two engines agree about a run when their services answer its calls alike in worlds that a relation
ties together, and lead to such worlds again. Running a node then takes the same step in both, apart
from dates. It looks only at the innermost frame, and of the run it changes nothing but what prompts
are remembered.
-/

namespace Pipework

variable {σ τ : Type}

theorem map_eq_ok {ε α β : Type} {f : α → β} {x : Except ε α} {b : β} (h : x.map f = .ok b) :
    ∃ a, x = .ok a ∧ f a = b := by
  cases x with
  | error e => cases h
  | ok a => exact ⟨a, rfl, Except.ok.inj h⟩

def Snapshot.redate (d : Instant → Instant) (s : Snapshot) : Snapshot :=
  { s with suspendedAt := d s.suspendedAt }

def Step.redate (d : Instant → Instant) : Step → Step
  | .suspend snapshot => .suspend (snapshot.redate d)
  | step => step

@[simp] theorem Step.redate_id (step : Step) : step.redate id = step := by
  cases step <;> rfl

def SameAnswer {α : Type} (R : σ → τ → Prop) (p : α × σ) (q : α × τ) : Prop :=
  p.1 = q.1 ∧ R p.2 q.2

/-- The calls of a run are answered alike in related worlds and lead to related worlds. Questions
for the terminal do not say whose they are. Of the clocks only that is compared which `d` leaves of
them. -/
structure Services.Agree (sv : Services σ) (tv : Services τ) (run : String)
    (d : Instant → Instant) (R : σ → τ → Prop) : Prop where
  process {w : σ} {v : τ} (hw : R w v) {c : CallContext} (hc : c.run = run) (name : String)
    (args : Json) : SameAnswer R (sv.process name args c w) (tv.process name args c v)
  request {w : σ} {v : τ} (hw : R w v) {c : CallContext} (hc : c.run = run) (payload : Json) :
    SameAnswer R (sv.request payload c w) (tv.request payload c v)
  chat {w : σ} {v : τ} (hw : R w v) {c : CallContext} (hc : c.run = run) (r : ChatRequest) :
    SameAnswer R (sv.chat r c w) (tv.chat r c v)
  render {w : σ} {v : τ} (hw : R w v) (r : RenderRequest) :
    SameAnswer R (sv.render r w) (tv.render r v)
  notify {w : σ} {v : τ} (hw : R w v) {hook : HookCall} (hc : hook.context.run = run) :
    R (sv.notify hook w) (tv.notify hook v)
  now {w : σ} {v : τ} (hw : R w v) : d (sv.now w) = d (tv.now v)

section

variable {υ : Type} {sv : Services σ} {tv : Services τ} {uv : Services υ} {run : String}
  {d : Instant → Instant} {R : σ → τ → Prop} {Q : τ → υ → Prop}

theorem SameAnswer.symm {α : Type} {p : α × σ} {q : α × τ} (h : SameAnswer R p q) :
    SameAnswer (fun v w => R w v) q p := ⟨h.1.symm, h.2⟩

theorem SameAnswer.trans {α : Type} {p : α × σ} {q : α × τ} {r : α × υ} (h : SameAnswer R p q)
    (h' : SameAnswer Q q r) : SameAnswer (fun w u => ∃ v, R w v ∧ Q v u) p r :=
  ⟨h.1.trans h'.1, q.2, h.2, h'.2⟩

theorem Services.Agree.symm (h : sv.Agree tv run d R) : tv.Agree sv run d fun v w => R w v where
  process hw _ hc name args := (h.process hw hc name args).symm
  request hw _ hc payload := (h.request hw hc payload).symm
  chat hw _ hc r := (h.chat hw hc r).symm
  render hw r := (h.render hw r).symm
  notify hw _ hc := h.notify hw hc
  now hw := (h.now hw).symm

theorem Services.Agree.trans (h : sv.Agree tv run d R) (h' : tv.Agree uv run d Q) :
    sv.Agree uv run d fun w u => ∃ v, R w v ∧ Q v u where
  process hw _ hc name args := by
    obtain ⟨v, hr, hq⟩ := hw
    exact SameAnswer.trans (h.process hr hc name args) (h'.process hq hc name args)
  request hw _ hc payload := by
    obtain ⟨v, hr, hq⟩ := hw
    exact SameAnswer.trans (h.request hr hc payload) (h'.request hq hc payload)
  chat hw _ hc r := by
    obtain ⟨v, hr, hq⟩ := hw
    exact SameAnswer.trans (h.chat hr hc r) (h'.chat hq hc r)
  render hw r := by
    obtain ⟨v, hr, hq⟩ := hw
    exact SameAnswer.trans (h.render hr r) (h'.render hq r)
  notify hw _ hc := by
    obtain ⟨v, hr, hq⟩ := hw
    exact ⟨_, h.notify hr hc, h'.notify hq hc⟩
  now hw := by
    obtain ⟨v, hr, hq⟩ := hw
    exact (h.now hr).trans (h'.now hq)

end

structure Engine.Agree (eng : Engine σ) (eng' : Engine τ) (run : String) (d : Instant → Instant)
    (R : σ → τ → Prop) : Prop extends eng.services.Agree eng'.services run d R where
  evaluator : eng'.evaluator = eng.evaluator
  settings : eng'.settings = eng.settings

theorem Services.agree_self (sv : Services σ) (run : String) (d : Instant → Instant) :
    sv.Agree sv run d Eq where
  process hw _ _ _ _ := ⟨by rw [hw], by rw [hw]⟩
  request hw _ _ _ := ⟨by rw [hw], by rw [hw]⟩
  chat hw _ _ _ := ⟨by rw [hw], by rw [hw]⟩
  render hw _ := ⟨by rw [hw], by rw [hw]⟩
  notify hw _ _ := by rw [hw]
  now hw := by rw [hw]

theorem Engine.agree_self (eng : Engine σ) (run : String) (d : Instant → Instant) :
    eng.Agree eng run d Eq :=
  ⟨eng.services.agree_self run d, rfl, rfl⟩

def Run.over (r : Run) (below : List Frame) (paused : Option Snapshot) : Run :=
  { r with stack := ⟨r.stack.top, below⟩, paused := paused }

structure Dispatched (d : Instant → Instant) (R : σ → τ → Prop) (r r' : Run)
    (p : Except RunError Step × Scene σ) (q : Except RunError Step × Scene τ) : Prop where
  step : p.1.map (Step.redate d) = q.1.map (Step.redate d)
  world : R p.2.world q.2.world
  runs : ∃ m, p.2.run = { r with memory := m } ∧ q.2.run = { r' with memory := m }

namespace Engine

variable {eng : Engine σ} {eng' : Engine τ} {d : Instant → Instant} {R : σ → τ → Prop}

theorem notifyAll_agree {c : CallContext} (h : eng.Agree eng' c.run d R)
    (progress : Option String) (chunks : List String) {w : σ} {v : τ} (hw : R w v) :
    R (eng.notifyAll progress c chunks w) (eng'.notifyAll progress c chunks v) := by
  cases progress with
  | none => exact hw
  | some name =>
    simp only [notifyAll, h.settings]
    induction chunks generalizing w v with
    | nil => exact hw
    | cons chunk chunks ih => exact ih (h.notify hw rfl)

section

variable {r : Run} (h : eng.Agree eng' r.id d R) (below : List Frame) (paused : Option Snapshot)
  (n : Node Pipe)
include h

theorem finish_agree (w₀ : σ) (v₀ : τ) {p : Except NodeError Json × σ}
    {q : Except NodeError Json × τ} (hpq : SameAnswer R p q) :
    Dispatched d R r (r.over below paused) (eng.finish ⟨r, w₀⟩ n p)
      (eng'.finish ⟨r.over below paused, v₀⟩ n q) := by
  obtain ⟨answer, w⟩ := p
  obtain ⟨answer', v⟩ := q
  obtain ⟨rfl, hw⟩ := hpq
  cases answer with
  | error e => exact ⟨rfl, hw, _, rfl, rfl⟩
  | ok raw =>
    refine ⟨?_, hw, _, rfl, rfl⟩
    simp only [finish, Run.mapOutput, h.evaluator]
    rfl

theorem readReply_agree (w₀ : σ) (v₀ : τ) {p : ChatReply × σ} {q : ChatReply × τ}
    (hpq : SameAnswer R p q) :
    Dispatched d R r (r.over below paused) (eng.readReply ⟨r, w₀⟩ n p)
      (eng'.readReply ⟨r.over below paused, v₀⟩ n q) := by
  obtain ⟨⟨chunks, status⟩, w⟩ := p
  obtain ⟨reply, v⟩ := q
  obtain ⟨rfl, hw⟩ := hpq
  have hn := notifyAll_agree (c := r.callContext n) h r.stack.top.pipe.progress chunks hw
  cases status with
  | error e => exact ⟨rfl, hn, _, rfl, rfl⟩
  | ok raw =>
    simp only [readReply]
    split
    · exact ⟨rfl, hn, _, rfl, rfl⟩
    · refine ⟨?_, hn, _, rfl, rfl⟩
      simp only [Run.mapOutput, h.evaluator]
      rfl

theorem dispatchAi_agree (prompts : List Prompt) (model : String) (options : Json) {w : σ} {v : τ}
    (hw : R w v) :
    Dispatched d R r (r.over below paused) (eng.dispatchAi ⟨r, w⟩ n prompts model options)
      (eng'.dispatchAi ⟨r.over below paused, v⟩ n prompts model options) := by
  simp only [dispatchAi, h.evaluator, Run.over]
  cases renderPrompts eng.evaluator r.stack.top.dataValue prompts with
  | error e => exact ⟨rfl, hw, _, rfl, rfl⟩
  | ok prompts =>
    cases eng.evaluator.resolve r.stack.top.dataValue options with
    | error e => exact ⟨rfl, hw, _, rfl, rfl⟩
    | ok options =>
      obtain ⟨step, world, m, hm, hm'⟩ := readReply_agree (r :=
        { r with memory := r.memory.merge (PromptMemory.key r.stack.top.pipe.id n.name) prompts })
        h below paused n w v
        (h.chat (c := r.callContext n) hw rfl ⟨model,
          r.memory.merged (PromptMemory.key r.stack.top.pipe.id n.name) prompts, options⟩)
      exact ⟨step, world, m, hm, hm'⟩

theorem dispatchUserInput_agree (ui : UiKind) (autofill : Option String) {w : σ} {v : τ}
    (hw : R w v) :
    Dispatched d R r (r.over below paused) (eng.dispatchUserInput ⟨r, w⟩ n ui autofill)
      (eng'.dispatchUserInput ⟨r.over below paused, v⟩ n ui autofill) := by
  have hb : eng'.boundInput = eng.boundInput := by
    funext data n
    simp only [boundInput, h.evaluator]
  have hs : eng'.seed = eng.seed := by
    funext data autofill
    simp only [seed, h.evaluator]
  simp only [dispatchUserInput, hb, hs]
  simp only [Run.over]
  cases eng.boundInput r.stack.top.data n with
  | error e => exact ⟨rfl, hw, _, rfl, rfl⟩
  | ok bound =>
    cases ui.isInteractive with
    | false =>
      refine ⟨?_, hw, _, rfl, rfl⟩
      simp [Except.map, Step.redate, Snapshot.redate, h.now hw]
    | true =>
      cases eng.seed r.stack.top.dataValue autofill with
      | error e => exact ⟨rfl, hw, _, rfl, rfl⟩
      | ok seed =>
        obtain ⟨ha, hw'⟩ := h.render hw ⟨n.name, n.label, bound, seed⟩
        exact finish_agree h below paused n w v ⟨by rw [ha], hw'⟩

theorem dispatch_agree {w : σ} {v : τ} (hw : R w v) :
    Dispatched d R r (r.over below paused) (eng.dispatch ⟨r, w⟩ n)
      (eng'.dispatch ⟨r.over below paused, v⟩ n) := by
  cases hk : n.kind with
  | process name args =>
    simp only [dispatch, hk, h.evaluator]
    simp only [Run.over]
    cases eng.evaluator.resolve r.stack.top.dataValue args with
    | error e => exact ⟨rfl, hw, _, rfl, rfl⟩
    | ok args =>
      have hanswer := h.process (c := r.callContext n) hw rfl name args
      exact finish_agree h below paused n w v hanswer
  | request payload =>
    simp only [dispatch, hk, h.evaluator]
    simp only [Run.over]
    cases eng.evaluator.resolve r.stack.top.dataValue payload with
    | error e => exact ⟨rfl, hw, _, rfl, rfl⟩
    | ok payload =>
      have hanswer := h.request (c := r.callContext n) hw rfl payload
      exact finish_agree h below paused n w v hanswer
  | ai prompts model options =>
    simp only [dispatch, hk]
    exact dispatchAi_agree h below paused n prompts model options hw
  | switch cases =>
    simp only [dispatch, hk]
    refine ⟨?_, hw, _, rfl, rfl⟩
    simp only [dispatchSwitch, h.evaluator]
    rfl
  | userInput ui autofill =>
    simp only [dispatch, hk]
    exact dispatchUserInput_agree h below paused n ui autofill hw

end

theorem dispatch_run (eng : Engine σ) (s : Scene σ) (n : Node Pipe) :
    ∃ m, (eng.dispatch s n).2.run = { s.run with memory := m } := by
  have hself := eng.agree_self s.run.id id
  obtain ⟨m, hm, -⟩ := (dispatch_agree hself [] none n (rfl : s.world = s.world)).runs
  exact ⟨m, hm⟩

theorem dispatch_stack (eng : Engine σ) (s : Scene σ) (n : Node Pipe) :
    (eng.dispatch s n).2.run.stack = s.run.stack := by
  obtain ⟨m, hm⟩ := eng.dispatch_run s n
  rw [hm]

/-- Running a node does not depend on the frames below. -/
theorem dispatch_over (eng : Engine σ) (s : Scene σ) (n : Node Pipe) (below : List Frame)
    (paused : Option Snapshot) :
    eng.dispatch ⟨s.run.over below paused, s.world⟩ n =
      ((eng.dispatch s n).1,
        ⟨(eng.dispatch s n).2.run.over below paused, (eng.dispatch s n).2.world⟩) := by
  obtain ⟨hs, hw, m, hm, hm'⟩ :=
    dispatch_agree (eng.agree_self s.run.id id) below paused n (rfl : s.world = s.world)
  have hid : ∀ x : Except RunError Step, x.map (Step.redate id) = x := by
    intro x
    cases x <;> simp [Except.map]
  rw [hid, hid] at hs
  refine Prod.ext hs.symm ?_
  show (eng.dispatch ⟨s.run.over below paused, s.world⟩ n).2 = _
  rw [show (eng.dispatch s n).2.run = _ from hm, show (eng.dispatch s n).2.world = _ from hw]
  exact congrArg (Scene.mk · _) hm'

theorem finish_ok {eng : Engine σ} {s s' : Scene σ} {n : Node Pipe}
    {answer : Except NodeError Json × σ} {step : Step}
    (h : eng.finish s n answer = (.ok step, s')) : ∃ output, step = .advance output := by
  obtain ⟨answer, w⟩ := answer
  cases answer with
  | error e => cases h
  | ok raw =>
    simp only [finish, Prod.mk.injEq] at h
    obtain ⟨output, -, rfl⟩ := map_eq_ok h.1
    exact ⟨output, rfl⟩

theorem readReply_ok {eng : Engine σ} {s s' : Scene σ} {n : Node Pipe} {answer : ChatReply × σ}
    {step : Step} (h : eng.readReply s n answer = (.ok step, s')) :
    ∃ output, step = .advance output := by
  obtain ⟨⟨chunks, status⟩, w⟩ := answer
  cases status with
  | error e => cases h
  | ok raw =>
    simp only [readReply] at h
    split at h
    · cases h
    · simp only [Prod.mk.injEq] at h
      obtain ⟨output, -, rfl⟩ := map_eq_ok h.1
      exact ⟨output, rfl⟩

theorem mem_of_selectCase {ev : Evaluator} {data : Json} {fallback : Option (Case Pipe)}
    {cases : List (Case Pipe)} {c : Case Pipe}
    (h : selectCase ev data fallback cases = .ok (some c)) : c ∈ cases ∨ fallback = some c := by
  induction cases generalizing fallback with
  | nil =>
    cases h
    exact .inr rfl
  | cons first cases ih =>
    unfold selectCase at h
    split at h
    · rcases ih h with hmem | hor
      · exact .inl (List.mem_cons_of_mem _ hmem)
      · cases fallback with
        | none =>
          cases hor
          exact .inl List.mem_cons_self
        | some c' => exact .inr hor
    · split at h
      · cases h
      · cases h
        exact .inl List.mem_cons_self
      · rcases ih h with hmem | hor
        · exact .inl (List.mem_cons_of_mem _ hmem)
        · exact .inr hor

theorem untaken_of_selectCase {ev : Evaluator} {data : Json} {fallback : Option (Case Pipe)}
    {cases : List (Case Pipe)} (h : selectCase ev data fallback cases = .ok none) :
    fallback = none ∧
      ∀ c ∈ cases, c.expression ≠ defaultCase ∧ ev.test c.expression data = .ok false := by
  induction cases generalizing fallback with
  | nil =>
    cases h
    exact ⟨rfl, by simp⟩
  | cons first cases ih =>
    unfold selectCase at h
    split at h
    · obtain ⟨hor, -⟩ := ih h
      cases fallback <;> cases hor
    next hdefault =>
      split at h
      · cases h
      · cases h
      next hfalse =>
        obtain ⟨hnone, hall⟩ := ih h
        refine ⟨hnone, fun c hc => ?_⟩
        rcases List.mem_cons.mp hc with rfl | hc
        · exact ⟨hdefault, hfalse⟩
        · exact hall c hc

/-- The steps that a node can take. Only a switch enters a case, and only a question that is not
answered at once pauses the run; neither changes anything else. -/
inductive Takes (eng : Engine σ) (s : Scene σ) (n : Node Pipe) (s' : Scene σ) : Step → Prop
  | advance (output : Json) : Takes eng s n s' (.advance output)
  | enter {cases : List (Case Pipe)} {c : Case Pipe} {child : Frame} :
      n.kind = .switch cases →
      selectCase eng.evaluator s.run.stack.top.dataValue none cases = .ok (some c) →
      Frame.child eng.evaluator c.pipe s.run.stack.top = .ok child → s' = s →
      Takes eng s n s' (.enter child)
  | suspend {ui : UiKind} {autofill : Option String} {bound : Json} :
      n.kind = .userInput ui autofill → ui.isInteractive = false →
      eng.boundInput s.run.stack.top.data n = .ok bound → s' = s →
      Takes eng s n s' (.suspend ⟨s.run.id, s.run.stack.top.input,
        ⟨n.name, n.label, .userInput, ui⟩, bound, .userInput, ui, eng.services.now s.world⟩)

theorem takes_of_dispatch {eng : Engine σ} {s s' : Scene σ} {n : Node Pipe} {step : Step}
    (h : eng.dispatch s n = (.ok step, s')) : eng.Takes s n s' step := by
  have advances {p : Except RunError Step × Scene σ} (hp : p = (.ok step, s'))
      (ho : ∀ step s₁, p = (.ok step, s₁) → ∃ output, step = .advance output) :
      eng.Takes s n s' step := by
    obtain ⟨output, rfl⟩ := ho _ _ hp
    exact .advance output
  cases hk : n.kind with
  | process name args =>
    simp only [dispatch, hk] at h
    split at h
    · cases h
    · exact advances h fun _ _ => finish_ok
  | request payload =>
    simp only [dispatch, hk] at h
    split at h
    · cases h
    · exact advances h fun _ _ => finish_ok
  | ai prompts model options =>
    simp only [dispatch, hk, dispatchAi] at h
    split at h
    · cases h
    · split at h
      · cases h
      · exact advances h fun _ _ => readReply_ok
  | switch cases =>
    simp only [dispatch, hk, dispatchSwitch, Prod.mk.injEq] at h
    obtain ⟨hd, rfl⟩ := h
    split at hd
    · cases hd
    · cases hd
    next c hc =>
      cases hf : Frame.child eng.evaluator c.pipe s.run.stack.top with
      | error e =>
        rw [hf] at hd
        cases hd
      | ok f =>
        rw [hf] at hd
        cases hd
        exact .enter hk hc hf rfl
  | userInput ui autofill =>
    simp only [dispatch, hk, dispatchUserInput] at h
    split at h
    · cases h
    next bound hbound =>
      split at h
      · split at h
        · cases h
        · exact advances h fun _ _ => finish_ok
      next hui =>
        cases h
        exact .suspend hk (by simpa using hui) hbound rfl

theorem enter_of_dispatch {eng : Engine σ} {s s' : Scene σ} {n : Node Pipe} {child : Frame}
    (h : eng.dispatch s n = (.ok (.enter child), s')) :
    ∃ cases c, n.kind = .switch cases ∧
      selectCase eng.evaluator s.run.stack.top.dataValue none cases = .ok (some c) ∧
      Frame.child eng.evaluator c.pipe s.run.stack.top = .ok child ∧ s' = s := by
  cases takes_of_dispatch h with
  | enter hk hc hf hs => exact ⟨_, _, hk, hc, hf, hs⟩

theorem mapOutput_error {ev : Evaluator} {r : Run} {n : Node Pipe} {raw : Json} {e : RunError}
    (h : (r.mapOutput ev n raw).map Step.advance = .error e) : ∃ x, e = r.nodeError n x := by
  unfold Run.mapOutput at h
  split at h
  · cases h
  next spec _ =>
    cases hr : ev.resolve (.obj (Keyed.put r.stack.top.data "output" raw)) spec with
    | ok output =>
      rw [hr] at h
      cases h
    | error x =>
      rw [hr] at h
      cases h
      exact ⟨x, rfl⟩

inductive Fails (ev : Evaluator) (r : Run) (n : Node Pipe) : RunError → Prop
  | node (x : NodeError) : Fails ev r n (r.nodeError n x)
  | noCase {cases : List (Case Pipe)} : n.kind = .switch cases →
      selectCase ev r.stack.top.dataValue none cases = .ok none →
      Fails ev r n (.switchCaseNotFound r.stack.top.pipe.id n.name r.id)
  | emptyStream (raw : String) :
      Fails ev r n (.emptyStream r.stack.top.pipe.id n.index n.name r.id raw)

theorem fails_of_finish {eng : Engine σ} {s s' : Scene σ} {n : Node Pipe}
    {answer : Except NodeError Json × σ} {e : RunError}
    (h : eng.finish s n answer = (.error e, s')) : Fails eng.evaluator s.run n e := by
  unfold finish at h
  split at h
  · cases h
    exact .node _
  · obtain ⟨x, rfl⟩ := mapOutput_error (congrArg Prod.fst h)
    exact .node x

theorem fails_of_dispatch {eng : Engine σ} {s s' : Scene σ} {n : Node Pipe} {e : RunError}
    (h : eng.dispatch s n = (.error e, s')) : Fails eng.evaluator s.run n e := by
  unfold dispatch at h
  dsimp only at h
  split at h
  · split at h
    · cases h
      exact .node _
    · exact fails_of_finish h
  · split at h
    · cases h
      exact .node _
    · exact fails_of_finish h
  · unfold dispatchAi at h
    dsimp only at h
    split at h
    · cases h
      exact .node _
    · split at h
      · cases h
        exact .node _
      · unfold readReply at h
        dsimp only at h
        split at h
        · cases h
          exact .node _
        · split at h
          · cases h
            exact .emptyStream _
          · obtain ⟨x, rfl⟩ := mapOutput_error (congrArg Prod.fst h)
            exact .node x
  next cases hk =>
    unfold dispatchSwitch at h
    dsimp only at h
    split at h
    · cases h
      exact .node _
    next hnone =>
      cases h
      exact .noCase hk hnone
    next c _ =>
      cases hf : Frame.child eng.evaluator c.pipe s.run.stack.top with
      | error x =>
        rw [hf] at h
        cases h
        exact .node x
      | ok f =>
        rw [hf] at h
        cases h
  · unfold dispatchUserInput at h
    dsimp only at h
    split at h
    · cases h
      exact .node _
    · split at h
      · split at h
        · cases h
          exact .node _
        · exact fails_of_finish h
      · cases h

end Engine

end Pipework
