import Pipework.Proofs.Streaming
import Pipework.Proofs.Stripped

/-!
# Progress hooks and the pieces of replies do not change runs

Clients of two engines that stream alike do the same on both sides, except that the pipes may differ
in their hooks. Then the systems stay the same without their hooks, and the services have the same
calls but for those of hooks. A chat at a node starts a hook call for each piece of the reply.
-/

namespace Pipework

variable {σ τ : Type}

namespace Call

def isHook : Call → Bool
  | .hook _ => true
  | _ => false

def withoutHooks (calls : List Call) : List Call := calls.filter (!·.isHook)

@[simp] theorem withoutHooks_append (calls calls' : List Call) :
    withoutHooks (calls ++ calls') = withoutHooks calls ++ withoutHooks calls' :=
  List.filter_append ..

def telling (progress : Option String) (c : CallContext) (timeout : Nat) (chunks : List String) :
    List Call :=
  match progress with
  | none => []
  | some name => chunks.map fun chunk => .hook
      { name := name
        args := .obj [("pipe", .str c.pipe), ("node", .str c.node), ("context", .str c.run),
          ("chunk", .str chunk)]
        context := c
        timeout := timeout }

end Call

def BesideHooks (R : σ → τ → Prop) (w : σ × List Call) (v : τ × List Call) : Prop :=
  R w.1 v.1 ∧ Call.withoutHooks w.2 = Call.withoutHooks v.2

theorem SameAnswer.besideHooks {α : Type} {R : σ → τ → Prop} {p : α × σ} {q : α × τ}
    (h : SameAnswer R p q) (call : Call) {calls calls' : List Call}
    (hcalls : Call.withoutHooks calls = Call.withoutHooks calls') :
    SameAnswer (BesideHooks R) (Services.keep call calls p) (Services.keep call calls' q) :=
  ⟨h.1, h.2, by simp only [Services.keep, Call.withoutHooks_append, hcalls]⟩

theorem Engine.Streams.traced {eng : Engine σ} {eng' : Engine τ} {names names' : Names}
    {d : Instant → Instant} {R : σ → τ → Prop} (h : eng.Streams eng' names names' d R) :
    eng.traced.Streams eng'.traced names names' d (BesideHooks R) where
  evaluator := h.evaluator
  maxSteps := h.maxSteps
  process hw _ hname args c := (h.process hw.1 hname args c).besideHooks _ hw.2
  request hw payload c := (h.request hw.1 payload c).besideHooks _ hw.2
  chat hw r c :=
    have hreply := h.chat hw.1 r c
    ⟨hreply.text, hreply.status, hreply.world, by
      simp only [Engine.traced, Services.traced, Services.keep, Call.withoutHooks_append, hw.2]⟩
  render hw r := (h.render hw.1 r).besideHooks _ hw.2
  hook hw _ hname := ⟨h.hook hw.1 hname, by
    simp only [Engine.traced, Services.traced, Call.withoutHooks_append, ← hw.2]
    exact List.append_nil _⟩
  hook' hw _ hname := ⟨h.hook' hw.1 hname, by
    simp only [Engine.traced, Services.traced, Call.withoutHooks_append, hw.2]
    exact (List.append_nil _).symm⟩
  isCancelled hw _ htoken := h.isCancelled hw.1 htoken
  now hw := h.now hw.1

def Action.names (acts : List (Action σ)) : Names where
  process name := ∃ act ∈ acts, ∃ p, act.pipe? = some p ∧
    ∃ q n args, p.Inner q ∧ n ∈ q.nodes ∧ n.kind = .process name args
  hook name := ∃ act ∈ acts, ∃ p, act.pipe? = some p ∧ ∃ q, p.Inner q ∧ q.progress = some name
  token token := ∃ h, .withToken h token ∈ acts

structure Names.Within (names all : Names) : Prop where
  process {name : String} : names.process name → all.process name
  hook {name : String} : names.hook name → all.hook name
  token {token : String} : names.token token → all.token token

theorem Engine.Streams.mono {eng : Engine σ} {eng' : Engine τ} {names names' all all' : Names}
    {d : Instant → Instant} {R : σ → τ → Prop} (h : eng.Streams eng' all all' d R)
    (hnames : names.Within all) (hnames' : names'.Within all') :
    eng.Streams eng' names names' d R where
  evaluator := h.evaluator
  maxSteps := h.maxSteps
  process hw _ hname := h.process hw (hnames.process hname)
  request := h.request
  chat := h.chat
  render := h.render
  hook hw _ hname := h.hook hw (hnames.hook hname)
  hook' hw _ hname := h.hook' hw (hnames'.hook hname)
  isCancelled hw _ htoken := h.isCancelled hw (hnames.token htoken)
  now := h.now

theorem Action.names_append (acts acts' : List (Action σ)) :
    (names acts).Within (names (acts ++ acts')) where
  process := fun ⟨act, hact, hname⟩ => ⟨act, List.mem_append_left _ hact, hname⟩
  hook := fun ⟨act, hact, hname⟩ => ⟨act, List.mem_append_left _ hact, hname⟩
  token := fun ⟨h, hact⟩ => ⟨h, List.mem_append_left _ hact⟩

def System.Covered (names : Names) (s : System σ) : Prop :=
  ∀ h a run left, s.hands h = some ⟨a, .running run left⟩ →
    names.Cover run ∧ ∀ token, a.token = some token → names.token token

namespace Engine

variable {eng : Engine σ}

theorem cover_play (w : σ) (acts : List (Action σ)) {h : Nat} {a : Attempt} {run : Run}
    {left : Nat} (hx : (eng.play (.init w) acts).hands h = some ⟨a, .running run left⟩) :
    (Action.names acts).Cover run := by
  have hpositioned : Positioned (fun _ q => ∃ act ∈ acts, act.pipe? = some q)
      (eng.play (.init w) acts) := by
    refine eng.positioned_play _ w fun before act after hsplit id q hbegins => ?_
    obtain ⟨other, hmem, hq⟩ := pipe_of_begins hbegins after
    exact ⟨other, hsplit ▸ hmem, hq⟩
  obtain ⟨-, p, hplace, act, hact, hp⟩ := hpositioned.hands hx
  have hinner := hplace.inner run.stack.top List.mem_cons_self
  refine ⟨fun {n} _ _ hn hk => ?_, fun hprogress => ?_⟩
  · exact ⟨act, hact, p, hp, _, n, _, hinner, List.mem_of_getElem? hn, hk⟩
  · exact ⟨act, hact, p, hp, _, hinner, hprogress⟩

end Engine

def System.Tokens (P : String → Prop) (s : System σ) : Prop :=
  ∀ h x, s.hands h = some x → ∀ token, x.attempt.token = some token → P token

namespace System.Tokens

variable {P : String → Prop} {s : System σ}

theorem put (hs : s.Tokens P) (k : Nat) {y : Option Hand}
    (hy : ∀ x, y = some x → ∀ token, x.attempt.token = some token → P token) :
    (s.put k y).Tokens P := by
  intro h x hx
  rw [put_hands, Function.update_apply] at hx
  split at hx
  · exact hy x hx
  · exact hs h x hx

theorem restage (hs : s.Tokens P) {k : Nat} {a : Attempt} {stage : Stage}
    (hx : s.hands k = some ⟨a, stage⟩) (stage' : Stage) :
    (s.put k (some ⟨a, stage'⟩)).Tokens P := by
  refine hs.put k ?_
  rintro _ ⟨⟩ token htoken
  exact hs k ⟨a, stage⟩ hx token htoken

theorem drop (hs : s.Tokens P) (k : Nat) : (s.put k none).Tokens P := hs.put k (by simp)

theorem hold (hs : s.Tokens P) {a : Attempt} (ha : a.token = none) : (s.hold a).Tokens P := by
  refine put (s := { s with made := s.made + 1 }) hs s.made ?_
  rintro _ ⟨⟩ token htoken
  rw [ha] at htoken
  cases htoken

theorem begin (hs : s.Tokens P) (id : String) (p : Pipe) : (s.begin id p).Tokens P := by
  unfold System.begin
  split
  · exact hs
  · exact hold (s := { s with ids := id :: s.ids }) hs rfl

theorem amend (hs : s.Tokens P) (k : Nat) {f : Attempt → Attempt}
    (hf : ∀ a token, (f a).token = some token → a.token = some token ∨ P token) :
    (s.amend k f).Tokens P := by
  unfold System.amend
  split
  next a hx =>
    refine hs.put k ?_
    rintro _ ⟨⟩ token htoken
    exact (hf a token htoken).elim (hs k _ hx token) fun h => h
  · exact hs

end System.Tokens

namespace Engine

variable {eng : Engine σ}

theorem tokens_step {P : String → Prop} {s : System σ} (hs : s.Tokens P) {act : Action σ}
    (hact : ∀ h token, act = .withToken h token → P token) : (eng.step s act).Tokens P := by
  cases act with
  | create id name =>
    simp only [step]
    split
    · exact hs.begin id _
    · exact hs
  | start id p => exact hs.begin id p
  | takeUp id =>
    simp only [step]
    split
    next ht =>
      obtain ⟨e, -, -, rfl, -⟩ := System.takeUp_ok ht
      exact hs.hold rfl
    · exact hs
  | withGlobal h global => exact hs.amend h fun _ _ htoken => .inl htoken
  | withSid h sid => exact hs.amend h fun _ _ htoken => .inl htoken
  | withToken h token =>
    refine hs.amend h fun a other hother => .inr ?_
    cases hother
    exact hact h token rfl
  | exec h input =>
    simp only [step]
    split
    next hx => exact hs.restage hx _
    · exact hs
  | resume h answers =>
    simp only [step]
    split
    next hx =>
      split
      · exact hs.drop h
      · exact hs.restage hx _
    · exact hs
  | turn h =>
    simp only [step]
    split
    next hx => split <;> exact hs.restage hx _
    · exact hs
  | settle h =>
    simp only [step]
    split
    next hx => exact hs.restage hx _
    · exact hs
  | drop h =>
    simp only [step]
    split
    · exact hs.drop h
    · exact hs
  | close | prune | register | unregister | outside => exact hs

theorem tokens_play {P : String → Prop} {s : System σ} (hs : s.Tokens P) {acts : List (Action σ)}
    (hacts : ∀ h token, .withToken h token ∈ acts → P token) : (eng.play s acts).Tokens P := by
  induction acts generalizing s with
  | nil => exact hs
  | cons act acts ih =>
    have hfirst : (eng.step s act).Tokens P := eng.tokens_step hs fun h token hact =>
      hacts h token (hact ▸ List.mem_cons_self)
    exact ih hfirst fun h token hmem => hacts h token (List.mem_cons_of_mem _ hmem)

theorem covered_play (w : σ) (acts : List (Action σ)) :
    (eng.play (.init w) acts).Covered (Action.names acts) := by
  intro h a run left hx
  have htokens : (eng.play (.init w) acts).Tokens (Action.names acts).token :=
    eng.tokens_play (by rintro h x ⟨⟩) fun h token hmem => ⟨h, hmem⟩
  exact ⟨cover_play w acts hx, htokens h _ hx⟩

end Engine

structure System.Even (d : Instant → Instant) (R : σ → τ → Prop) (s : System σ) (s' : System τ) :
    Prop where
  same : s.bare d = s'.bare d
  world : R s.world s'.world

theorem System.Even.put {d : Instant → Instant} {R : σ → τ → Prop} {s : System σ} {s' : System τ}
    (hs : s.Even d R s') (k : Nat) {a a' : Attempt} {stage stage' : Stage} {w : σ} {v : τ}
    (ha : a.bare d = a'.bare d) (hstage : stage.bare d = stage'.bare d) (hw : R w v) :
    System.Even d R ({ s with world := w }.put k (some ⟨a, stage⟩))
      ({ s' with world := v }.put k (some ⟨a', stage'⟩)) := by
  have hworld : ({ s with world := w } : System σ).bare d =
      ({ s' with world := v } : System τ).bare d := hs.same
  have hhand : Hand.bare d ⟨a, stage⟩ = Hand.bare d ⟨a', stage'⟩ := congrArg₂ Hand.mk ha hstage
  refine ⟨?_, hw⟩
  rw [put_bare, put_bare, hworld, Option.map_some, Option.map_some, hhand]

/-- The same is done on both sides but for the hooks of pipes. Pruning compares dates, and so do
both sides then. -/
structure Action.Even (d : Instant → Instant) (R : σ → τ → Prop) (act : Action σ)
    (act' : Action τ) : Prop where
  same : act.bare = act'.bare
  outside {w : σ} {v : τ} : act = .outside w → act' = .outside v → R w v
  prune {maxAge : Int} : act = .prune maxAge → d = id

theorem Action.eq_turn_of_bare {act : Action σ} {h : Nat} (hb : act.bare = .turn h) :
    act = .turn h := by
  cases act <;> cases hb
  rfl

theorem Action.eq_prune_of_bare {act : Action σ} {maxAge : Int} (hb : act.bare = .prune maxAge) :
    act = .prune maxAge := by
  cases act <;> cases hb
  rfl

theorem Action.eq_outside_of_bare {act : Action σ} (hb : act.bare = .outside ()) :
    ∃ w, act = .outside w := by
  cases act <;> cases hb
  exact ⟨_, rfl⟩

namespace Engine

variable {eng : Engine σ} {eng' : Engine τ} {names names' : Names} {d : Instant → Instant}
  {R : σ → τ → Prop} {s : System σ} {s' : System τ}

theorem Streams.idle (h : eng.Streams eng' names names' d R) {w : σ} {v : τ} (hw : R w v) :
    eng.idle d w = eng'.idle d v := by
  simp only [Engine.idle, h.evaluator, h.maxSteps, h.now hw]

theorem step_turn_even (h : eng.Streams eng' names names' d R) (hs : s.Even d R s')
    (hcover : s.Covered names) (hcover' : s'.Covered names') (k : Nat) :
    (eng.step s (.turn k)).Even d R (eng'.step s' (.turn k)) := by
  have hhands : (s.hands k).map (Hand.bare d) = (s'.hands k).map (Hand.bare d) :=
    congrFun (congrArg System.hands hs.same) k
  simp only [step]
  cases hx : s.hands k with
  | none =>
    rw [hx] at hhands
    rw [Option.map_eq_none_iff.mp hhands.symm]
    exact hs
  | some x =>
    rw [hx] at hhands
    obtain ⟨x', hx', hbare⟩ := Option.map_eq_some_iff.mp hhands.symm
    obtain ⟨a, stage⟩ := x
    obtain ⟨a', stage'⟩ := x'
    obtain ⟨ha, hstage⟩ := Hand.mk.inj hbare.symm
    rw [hx']
    cases stage with
    | running run left => cases stage' with
      | running run' left' =>
        obtain ⟨hrun, rfl⟩ := Stage.running.inj hstage
        obtain ⟨hcovered, htoken⟩ := hcover k a run left hx
        obtain ⟨hcovered', -⟩ := hcover' k a' run' left hx'
        have hsame : a.token = a'.token := congrArg (fun a => a.token) ha
        have hscene : Scene.Even d R ⟨run, s.world⟩ ⟨run', s'.world⟩ := ⟨hrun, hs.world⟩
        have hturn := turn_even h hscene htoken hcovered hcovered' left
        dsimp only
        rw [← hsame]
        generalize eng.turn a.token ⟨⟨run, s.world⟩, left⟩ = t at hturn ⊢
        generalize eng'.turn a.token ⟨⟨run', s'.world⟩, left⟩ = t' at hturn ⊢
        cases hturn with
        | @more t t' left hscene =>
          have hstage : (Stage.running t.run left).bare d = (Stage.running t'.run left).bare d :=
            congrArg (Stage.running · left) hscene.run
          exact hs.put k ha hstage hscene.world
        | @done result result' t t' hresult hscene =>
          have hstage : (Stage.ended result t.run).bare d = (Stage.ended result' t'.run).bare d :=
            congrArg₂ Stage.ended hresult hscene.run
          exact hs.put k ha hstage hscene.world
      | idle | ended | settled => cases hstage
    | idle => cases stage' with
      | idle => exact hs
      | running | ended | settled => cases hstage
    | ended result run => cases stage' with
      | ended => exact hs
      | running | idle | settled => cases hstage
    | settled => cases stage' with
      | settled => exact hs
      | running | idle | ended => cases hstage

theorem step_even (h : eng.Streams eng' names names' d R) (hs : s.Even d R s')
    (hcover : s.Covered names) (hcover' : s'.Covered names') {act : Action σ} {act' : Action τ}
    (hact : act.Even d R act') : (eng.step s act).Even d R (eng'.step s' act') := by
  by_cases hturn : ∃ k, act = .turn k
  · obtain ⟨k, rfl⟩ := hturn
    obtain rfl := Action.eq_turn_of_bare hact.same.symm
    exact step_turn_even h hs hcover hcover' k
  · have hturn' (k : Nat) : act' ≠ .turn k := by
      rintro rfl
      exact hturn ⟨k, Action.eq_turn_of_bare hact.same⟩
    refine ⟨?_, ?_⟩
    · have hprune' (maxAge : Int) : act' = .prune maxAge → d = id := by
        rintro rfl
        exact hact.prune (Action.eq_prune_of_bare hact.same)
      rw [eng.step_bare d s (fun k hk => hturn ⟨k, hk⟩) fun _ => hact.prune,
        eng'.step_bare d s' hturn' hprune', hs.same, hact.same, h.idle hs.world]
    · by_cases houtside : ∃ w, act = .outside w
      · obtain ⟨w, rfl⟩ := houtside
        obtain ⟨v, rfl⟩ := Action.eq_outside_of_bare hact.same.symm
        exact hact.outside rfl rfl
      · have houtside' (v : τ) : act' ≠ .outside v := by
          rintro rfl
          exact houtside (Action.eq_outside_of_bare hact.same)
        rw [world_step act (fun k hk => hturn ⟨k, hk⟩) fun w hw => houtside ⟨w, hw⟩,
          world_step act' hturn' houtside']
        exact hs.world

theorem play_even {w : σ} {v : τ} (hw : R w v) {moves : List (Action σ × Action τ)}
    (h : eng.Streams eng' (Action.names (moves.map Prod.fst)) (Action.names (moves.map Prod.snd)) d
      R) (hmoves : ∀ x ∈ moves, x.1.Even d R x.2) :
    (eng.play (.init w) (moves.map Prod.fst)).Even d R
      (eng'.play (.init v) (moves.map Prod.snd)) := by
  -- From the end, since what turns may name is known of the systems that have been reached.
  induction moves using List.reverseRecOn with
  | nil => exact ⟨rfl, hw⟩
  | append_singleton moves x ih =>
    rw [List.map_append, List.map_append] at h ⊢
    have hbefore := h.mono (Action.names_append _ _) (Action.names_append _ _)
    have heven := ih hbefore fun y hy => hmoves y (List.mem_append_left _ hy)
    have hact := hmoves x (List.mem_append_right _ (List.mem_singleton_self x))
    rw [play_append, play_append]
    exact step_even hbefore heven (covered_play w _) (covered_play v _) hact

theorem notifyAll_traced (eng : Engine σ) (progress : Option String) (c : CallContext)
    (chunks : List String) (w : σ × List Call) :
    (eng.traced.notifyAll progress c chunks w).2 =
      w.2 ++ Call.telling progress c eng.settings.hookTimeout chunks := by
  cases progress with
  | none => exact (List.append_nil _).symm
  | some name =>
    unfold notifyAll Call.telling
    dsimp only
    induction chunks generalizing w with
    | nil => exact (List.append_nil _).symm
    | cons chunk chunks ih =>
      rw [List.foldl_cons, ih, List.map_cons, List.append_cons]
      rfl

/-- The calls of a turn at a node that chats: the request, and one hook call for each piece of the
reply, however the reply ends. There are none if a template of the node fails. -/
def chatCalls (eng : Engine σ) (run : Run) (n : Node Pipe) (prompts : List Prompt) (model : String)
    (options : Json) (w : σ) : List Call :=
  let data := run.stack.top.dataValue
  match renderPrompts eng.evaluator data prompts, eng.evaluator.resolve data options with
  | .ok rendered, .ok options =>
    let pipe := run.stack.top.pipe
    let c : CallContext := ⟨pipe.id, run.id, n.name, run.sid, run.global⟩
    let key := PromptMemory.key pipe.id n.name
    let sent : ChatRequest := ⟨model, run.memory.merged key rendered, options⟩
    .chat sent c :: Call.telling pipe.progress c eng.settings.hookTimeout
      (eng.services.chat sent c w).1.chunks
  | _, _ => []

theorem calls_of_chat (eng : Engine σ) {s : System (σ × List Call)} {h : Nat} {a : Attempt}
    {run : Run} {left : Nat} {n : Node Pipe} {prompts : List Prompt} {model : String}
    {options : Json} (hx : s.hands h = some ⟨a, .running run (left + 1)⟩)
    (hc : eng.isCancelled a.token s.world.1 = false) (hn : run.current? = some n)
    (hk : n.kind = .ai prompts model options) :
    (eng.traced.step s (.turn h)).world.2 =
      s.world.2 ++ eng.chatCalls run n prompts model options s.world.1 := by
  have hnot : eng.traced.isCancelled a.token s.world = false := by rwa [traced_isCancelled]
  have hworld : (eng.traced.step s (.turn h)).world =
      (eng.traced.dispatch ⟨run, s.world⟩ n).2.world := by
    rw [eng.traced.world_of_turn_step hx, turn_node _ (s := ⟨run, s.world⟩) hnot hn]
    exact (eng.traced.runNode_scene ⟨run, s.world⟩ n left).1
  rw [hworld]
  simp only [dispatch, hk, dispatchAi, traced_evaluator, chatCalls]
  cases renderPrompts eng.evaluator run.stack.top.dataValue prompts with
  | error e => exact (List.append_nil _).symm
  | ok rendered =>
    dsimp only
    cases eng.evaluator.resolve run.stack.top.dataValue options with
    | error e => exact (List.append_nil _).symm
    | ok options =>
      dsimp only
      rw [readReply_world, notifyAll_traced]
      exact (List.append_cons ..).symm

/-- Definitions that are the same without hooks are built into pipes that are the same without
hooks. Whatever clients do with such pipes, engines that stream alike lead to systems that are the
same without hooks, and to the same calls but for those of hooks. Each chat of a run tells the hook
of its pipe every piece of the reply, in the order in which they have come. -/
theorem streaming_unseen (eng : Engine σ) (eng' : Engine τ) :
    (∀ fresh (e e' : Definition), e.unhooked = e'.unhooked →
      (Pipe.build fresh e).map Pipe.unhooked = (Pipe.build fresh e').map Pipe.unhooked) ∧
    (∀ d (R : σ → τ → Prop) w v (moves : List (Action (σ × List Call) × Action (τ × List Call))),
      eng.Streams eng' (Action.names (moves.map Prod.fst)) (Action.names (moves.map Prod.snd)) d
        R → R w v → (∀ x ∈ moves, x.1.Even d (BesideHooks R) x.2) →
      let s := eng.traced.play (.init (w, [])) (moves.map Prod.fst)
      let s' := eng'.traced.play (.init (v, [])) (moves.map Prod.snd)
      s.bare d = s'.bare d ∧ R s.world.1 s'.world.1 ∧
        Call.withoutHooks s.world.2 = Call.withoutHooks s'.world.2) ∧
    ∀ (s : System (σ × List Call)) h a run left n prompts model options,
      s.hands h = some ⟨a, .running run (left + 1)⟩ →
      eng.isCancelled a.token s.world.1 = false → run.current? = some n →
      n.kind = .ai prompts model options →
      (eng.traced.step s (.turn h)).world.2 =
        s.world.2 ++ eng.chatCalls run n prompts model options s.world.1 := by
  refine ⟨fun fresh e e' he => ?_, fun d R w v moves h hw hmoves => ?_, ?_⟩
  · rw [← Pipe.build_unhooked, ← Pipe.build_unhooked, he]
  · have hworlds : BesideHooks R (w, []) (v, []) := ⟨hw, rfl⟩
    obtain ⟨hsame, hworld, hcalls⟩ := play_even hworlds h.traced hmoves
    exact ⟨hsame, hworld, hcalls⟩
  · intro s h a run left n prompts model options hx hc hn hk
    exact eng.calls_of_chat hx hc hn hk

end Engine

theorem Pipe.exists_of_inner_unhooked {p q : Pipe} (h : p.unhooked.Inner q) :
    ∃ q₀ : Pipe, q = q₀.unhooked := by
  induction h with
  | self => exact ⟨p, rfl⟩
  | case _ hn hcase ih =>
    obtain ⟨q₀, rfl⟩ := ih
    obtain ⟨cases, c, hk, hc, rfl⟩ := hcase
    rw [unhooked_nodes] at hn
    obtain ⟨n₀, -, rfl⟩ := List.mem_map.mp hn
    rw [Node.unhooked_kind] at hk
    cases hk₀ : n₀.kind with
    | switch cases₀ =>
      rw [hk₀, NodeKind.unhooked_switch] at hk
      cases hk
      obtain ⟨c₀, -, rfl⟩ := List.mem_map.mp hc
      exact ⟨c₀.pipe, rfl⟩
    | process | ai | request | userInput =>
      rw [hk₀] at hk
      cases hk

def watchedEngine : Engine (Nat × Nat) where
  evaluator := countingEngine.evaluator
  services :=
    { process := fun _ args _ w => (.ok args, w.1 + 1, w.2)
      request := fun payload _ w => (.ok payload, w.1 + 1, w.2)
      chat := fun _ _ w => (⟨["y", "", "es"], .ok ""⟩, w.1 + 1, w.2)
      render := fun _ w => (.ok [], w.1 + 1, w.2)
      notify := fun _ w => (w.1, w.2 + 1)
      isCancelled := fun token w => token == "watch" && w.2 != 0
      now := fun w => ⟨w.1, 0⟩ }
  settings := ⟨10, 7, 1⟩

def watchedScript (p : Pipe) : List (Action σ) :=
  [.register p, .create "r" "main", .withToken 0 "stop", .exec 0 [.str "seed"], .turn 0, .turn 0,
    .turn 0, .turn 0, .settle 0, .drop 0, .takeUp "r", .resume 1 [.str "answer"], .turn 1, .turn 1,
    .settle 1, .drop 1]

def watchedMoves : List (Action ((Nat × Nat) × List Call) × Action (Nat × List Call)) :=
  (watchedScript guardedPipe).zip (watchedScript guardedPipe.unhooked)

theorem pipe_of_watchedScript {p q : Pipe} {act : Action σ} (hact : act ∈ watchedScript p)
    (hq : act.pipe? = some q) : q = p := by
  simp only [watchedScript, List.mem_cons, List.not_mem_nil, or_false] at hact
  rcases hact with rfl | rfl | rfl | rfl | rfl | rfl | rfl | rfl | rfl | rfl | rfl | rfl | rfl |
    rfl | rfl | rfl <;> cases hq
  rfl

theorem token_of_watchedScript {p : Pipe} {h : Nat} {token : String}
    (hact : (.withToken h token : Action σ) ∈ watchedScript p) : token = "stop" := by
  simp only [watchedScript, List.mem_cons, List.not_mem_nil, or_false, reduceCtorEq, false_or,
    Action.withToken.injEq] at hact
  exact hact.2

theorem streams_watchedEngine :
    watchedEngine.Streams countingEngine (Action.names (watchedMoves.map Prod.fst))
      (Action.names (watchedMoves.map Prod.snd)) id fun w v => w.1 = v where
  evaluator := rfl
  maxSteps := rfl
  process hw _ _ args _ := ⟨rfl, congrArg (· + 1) hw⟩
  request hw payload _ := ⟨rfl, congrArg (· + 1) hw⟩
  chat hw _ _ := ⟨rfl, rfl, congrArg (· + 1) hw⟩
  render hw _ := ⟨rfl, congrArg (· + 1) hw⟩
  hook hw _ _ := hw
  hook' _ _ hname := by
    obtain ⟨act, hact, p, hp, q, hq, hprogress⟩ := hname
    obtain rfl := pipe_of_watchedScript hact hp
    obtain ⟨q₀, rfl⟩ := Pipe.exists_of_inner_unhooked hq
    rw [Pipe.unhooked_progress] at hprogress
    cases hprogress
  isCancelled _ _ htoken := by
    obtain ⟨h, hact⟩ := htoken
    obtain rfl := token_of_watchedScript hact
    rfl
  now hw := congrArg (fun w : Nat => Instant.mk w 0) hw

theorem unhooked_guardedPipe : guardedPipe.unhooked.unhooked = guardedPipe.unhooked := by
  have hbuild : Pipe.build "" guardedDefinition.unhooked = .ok guardedPipe.unhooked := by
    rw [Pipe.build_unhooked, build_guardedDefinition]
    rfl
  have hagain := Pipe.build_unhooked "" guardedDefinition.unhooked
  rw [show guardedDefinition.unhooked.unhooked = guardedDefinition.unhooked from rfl, hbuild]
    at hagain
  exact (Except.ok.inj hagain).symm

theorem even_watchedMoves :
    ∀ x ∈ watchedMoves, x.1.Even id (BesideHooks fun w v => w.1 = v) x.2 := by
  intro x hx
  simp only [watchedMoves, watchedScript, List.zip_cons_cons, List.zip_nil_left, List.mem_cons,
    List.not_mem_nil, or_false] at hx
  rcases hx with rfl | rfl | rfl | rfl | rfl | rfl | rfl | rfl | rfl | rfl | rfl | rfl | rfl |
    rfl | rfl | rfl
  · exact ⟨congrArg Action.register unhooked_guardedPipe.symm, nofun, nofun⟩
  all_goals exact ⟨rfl, nofun, nofun⟩

def watchedChat : System ((Nat × Nat) × List Call) :=
  watchedEngine.traced.play (.init ((0, 0), [])) ((watchedScript guardedPipe).take 6)

theorem unseen_watchedMoves :
    (let s := watchedEngine.traced.play (.init ((0, 0), [])) (watchedMoves.map Prod.fst)
    let s' := countingEngine.traced.play (.init (0, [])) (watchedMoves.map Prod.snd)
    s.bare id = s'.bare id ∧ Call.withoutHooks s.world.2 = Call.withoutHooks s'.world.2 ∧
      s.world.2.countP Call.isHook = 3 ∧ s'.world.2.countP Call.isHook = 0) ∧
    ∃ a run left n prompts model options,
      watchedChat.hands 0 = some ⟨a, .running run (left + 1)⟩ ∧
      (watchedEngine.traced.step watchedChat (.turn 0)).world.2 = watchedChat.world.2 ++
        watchedEngine.chatCalls run n prompts model options watchedChat.world.1 := by
  obtain ⟨-, hplay, hchat⟩ := watchedEngine.streaming_unseen countingEngine
  obtain ⟨hsame, -, hcalls⟩ := hplay id (fun w v => w.1 = v) (0, 0) 0 watchedMoves
    streams_watchedEngine rfl even_watchedMoves
  refine ⟨⟨hsame, hcalls, by decide +kernel, by decide +kernel⟩, ?_⟩
  exact ⟨_, _, _, _, _, _, _, rfl, hchat watchedChat 0 _ _ _ _ _ _ _ rfl rfl rfl rfl⟩

end Pipework
