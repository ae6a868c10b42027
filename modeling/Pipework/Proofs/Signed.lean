import Pipework.Proofs.Calls

/-!
# Whose calls the services have had

`Engine.signed` keeps every call under the name of a client. Services keep runs apart if no run can
tell what the others have called. Questions for the terminal do not say whose they are, so it is
given which ones a run may put.
-/

namespace Pipework

variable {σ : Type}

abbrev Signed := List (String × Call)

def Signed.of (calls : Signed) (who : String) : List Call :=
  (calls.filter (·.1 == who)).map Prod.snd

namespace Signed

variable (calls calls' : Signed) (call : Call) {who other : String}

theorem of_append : (calls ++ calls').of who = calls.of who ++ calls'.of who := by
  simp [Signed.of]

theorem of_concat_self : (calls ++ [(who, call)]).of who = calls.of who ++ [call] := by
  simp [Signed.of]

theorem of_concat_of_ne (h : other ≠ who) : (calls ++ [(other, call)]).of who = calls.of who := by
  simp [Signed.of, h]

end Signed

namespace Services

def sign {α : Type} (who : String) (call : Call) (calls : Signed) (answer : α × σ) :
    α × (σ × Signed) :=
  (answer.1, answer.2, calls ++ [(who, call)])

def signed (who : String) (sv : Services σ) : Services (σ × Signed) where
  process name args c w := sign who (.process name args c) w.2 (sv.process name args c w.1)
  request payload c w := sign who (.request payload c) w.2 (sv.request payload c w.1)
  chat r c w := sign who (.chat r c) w.2 (sv.chat r c w.1)
  render r w := sign who (.render r) w.2 (sv.render r w.1)
  notify hook w := (sv.notify hook w.1, w.2 ++ [(who, .hook hook)])
  isCancelled token w := sv.isCancelled token w.1
  now w := sv.now w.1

def asking (asks : RenderRequest → Bool) (sv : Services σ) : Services σ :=
  { sv with render := fun r w => if asks r then sv.render r w else (.ok [], w) }

/-- Each run has worlds that it cannot tell apart: its calls are answered alike in them, and calls
of other runs lead from one to another. The questions that a run may put and the tokens that may
cancel it are given; of the clocks only that is compared which `d` leaves of them. -/
structure Apart (sv : Services σ) (d : Instant → Instant) (asks : String → RenderRequest → Bool)
    (tokens : String → String → Prop) (R : String → σ → σ → Prop) : Prop where
  equivalence (run : String) : Equivalence (R run)
  process {run : String} {w v : σ} (hw : R run w v) {c : CallContext} (hc : c.run = run)
    (name : String) (args : Json) :
    SameAnswer (R run) (sv.process name args c w) (sv.process name args c v)
  request {run : String} {w v : σ} (hw : R run w v) {c : CallContext} (hc : c.run = run)
    (payload : Json) : SameAnswer (R run) (sv.request payload c w) (sv.request payload c v)
  chat {run : String} {w v : σ} (hw : R run w v) {c : CallContext} (hc : c.run = run)
    (r : ChatRequest) : SameAnswer (R run) (sv.chat r c w) (sv.chat r c v)
  render {run : String} {w v : σ} (hw : R run w v) {r : RenderRequest} (hr : asks run r = true) :
    SameAnswer (R run) (sv.render r w) (sv.render r v)
  notify {run : String} {w v : σ} (hw : R run w v) {hook : HookCall}
    (hc : hook.context.run = run) : R run (sv.notify hook w) (sv.notify hook v)
  isCancelled {run : String} {w v : σ} (hw : R run w v) {token : String} (ht : tokens run token) :
    sv.isCancelled token v = sv.isCancelled token w
  now {run : String} {w v : σ} (hw : R run w v) : d (sv.now w) = d (sv.now v)
  process_unseen {run : String} (w : σ) {c : CallContext} (hc : c.run ≠ run) (name : String)
    (args : Json) : R run w (sv.process name args c w).2
  request_unseen {run : String} (w : σ) {c : CallContext} (hc : c.run ≠ run) (payload : Json) :
    R run w (sv.request payload c w).2
  chat_unseen {run : String} (w : σ) {c : CallContext} (hc : c.run ≠ run) (r : ChatRequest) :
    R run w (sv.chat r c w).2
  render_unseen {run other : String} (w : σ) (hne : other ≠ run) {r : RenderRequest}
    (hr : asks other r = true) : R run w (sv.render r w).2
  notify_unseen {run : String} (w : σ) {hook : HookCall} (hc : hook.context.run ≠ run) :
    R run w (sv.notify hook w)

def Told (R : String → σ → σ → Prop) (run : String) (w v : σ × Signed) : Prop :=
  R run w.1 v.1 ∧ w.2.of run = v.2.of run

variable {sv : Services σ} {d : Instant → Instant} {asks : String → RenderRequest → Bool}
  {tokens : String → String → Prop} {R : String → σ → σ → Prop} {run other : String}

theorem SameAnswer.told {α : Type} {w v : σ × Signed} {p q : α × σ}
    (hw : Told R run w v) (h : SameAnswer (R run) p q) (call : Call) :
    SameAnswer (Told R run) (sign run call w.2 p) (sign run call v.2 q) := by
  refine ⟨h.1, h.2, ?_⟩
  rw [sign, sign, Signed.of_concat_self, Signed.of_concat_self, hw.2]

theorem Apart.own (h : sv.Apart d asks tokens R) (run : String) :
    ((sv.asking (asks run)).signed run).Agree ((sv.asking (asks run)).signed run) run d
      (Told R run) where
  process hw _ hc name args := SameAnswer.told hw (h.process hw.1 hc name args) _
  request hw _ hc payload := SameAnswer.told hw (h.request hw.1 hc payload) _
  chat hw _ hc r := SameAnswer.told hw (h.chat hw.1 hc r) _
  render {w v} hw r := by
    refine SameAnswer.told hw ?_ _
    simp only [asking]
    by_cases hr : asks run r = true
    · rw [if_pos hr, if_pos hr]
      exact h.render hw.1 hr
    · rw [if_neg hr, if_neg hr]
      exact ⟨rfl, hw.1⟩
  notify {w v} hw hook hc := by
    refine ⟨h.notify hw.1 hc, ?_⟩
    simp only [signed, Signed.of_concat_self, asking, hw.2]
  now hw := h.now hw.1

theorem Apart.told_of_unseen (h : sv.Apart d asks tokens R) (hne : other ≠ run)
    {w v : σ × Signed} (hw : Told R run w v) {u : σ} (hu : R run v.1 u) (call : Call) :
    Told R run w (u, v.2 ++ [(other, call)]) :=
  ⟨(h.equivalence run).trans hw.1 hu, hw.2.trans (Signed.of_concat_of_ne _ _ hne).symm⟩

theorem Apart.unseen (h : sv.Apart d asks tokens R) (hne : other ≠ run) (w : σ × Signed) :
    ((sv.asking (asks other)).signed other).Agree ((sv.asking (asks other)).signed other) other
      id fun v v' => Told R run w v ∧ v = v' where
  process hv c hc name args := by
    obtain ⟨hw, rfl⟩ := hv
    exact ⟨rfl, h.told_of_unseen hne hw (h.process_unseen _ (hc ▸ hne) name args) _, rfl⟩
  request hv c hc payload := by
    obtain ⟨hw, rfl⟩ := hv
    exact ⟨rfl, h.told_of_unseen hne hw (h.request_unseen _ (hc ▸ hne) payload) _, rfl⟩
  chat hv c hc r := by
    obtain ⟨hw, rfl⟩ := hv
    exact ⟨rfl, h.told_of_unseen hne hw (h.chat_unseen _ (hc ▸ hne) r) _, rfl⟩
  render hv r := by
    obtain ⟨hw, rfl⟩ := hv
    refine ⟨rfl, h.told_of_unseen hne hw ?_ _, rfl⟩
    simp only [asking]
    by_cases hr : asks other r = true
    · rw [if_pos hr]
      exact h.render_unseen _ hne hr
    · rw [if_neg hr]
      exact (h.equivalence run).refl _
  notify hv hook hc := by
    obtain ⟨hw, rfl⟩ := hv
    exact ⟨h.told_of_unseen hne hw (h.notify_unseen _ (hc ▸ hne)) _, rfl⟩
  now hv := by rw [hv.2]

end Services

theorem Turn.Alike.world {τ : Type} {d : Instant → Instant} {R : σ → τ → Prop} {t : Turn σ}
    {t' : Turn τ} (h : Turn.Alike d R t t') : R t.scene.world t'.scene.world := by
  cases h with
  | more left hs => exact hs.world
  | done he => exact he.scene.world

namespace Engine

variable (eng : Engine σ) (who : String) (asks : RenderRequest → Bool)

def signed : Engine (σ × Signed) := ⟨eng.evaluator, eng.services.signed who, eng.settings⟩

def asking : Engine σ := ⟨eng.evaluator, eng.services.asking asks, eng.settings⟩

def Puts (asks : RenderRequest → Bool) (who : String) (calls : Signed) : Prop :=
  ∀ r, .render r ∈ calls.of who → asks r = true

variable {eng who asks}

theorem dispatchUserInput_asking {s : Scene (σ × Signed)} {n : Node Pipe} {ui : UiKind}
    {autofill : Option String}
    (h : Puts asks who ((eng.signed who).dispatchUserInput s n ui autofill).2.world.2 ∨
      Puts asks who (((eng.asking asks).signed who).dispatchUserInput s n ui autofill).2.world.2) :
    (eng.signed who).dispatchUserInput s n ui autofill =
      ((eng.asking asks).signed who).dispatchUserInput s n ui autofill := by
  have hbound : ((eng.asking asks).signed who).boundInput = (eng.signed who).boundInput := rfl
  have hseed : ((eng.asking asks).signed who).seed = (eng.signed who).seed := rfl
  simp only [dispatchUserInput, hbound, hseed] at h ⊢
  cases hb : (eng.signed who).boundInput s.run.stack.top.data n with
  | error e => rfl
  | ok bound =>
    cases hi : ui.isInteractive with
    | false => rfl
    | true =>
      cases hs : (eng.signed who).seed s.run.stack.top.dataValue autofill with
      | error e => rfl
      | ok seed =>
        simp only [hb, hi, hs, if_true, finish_world] at h
        have hput : Call.render ⟨n.name, n.label, bound, seed⟩ ∈
            (s.world.2 ++ [(who, Call.render ⟨n.name, n.label, bound, seed⟩)]).of who := by
          rw [Signed.of_concat_self]
          exact List.mem_append_right _ List.mem_cons_self
        have hasks := h.elim (fun h => h _ hput) (fun h => h _ hput)
        have hsame : ((eng.asking asks).signed who).services.render ⟨n.name, n.label, bound, seed⟩ =
            (eng.signed who).services.render ⟨n.name, n.label, bound, seed⟩ := by
          funext w
          simp [signed, asking, Services.signed, Services.asking, hasks]
        simp only [hsame]
        rfl

theorem dispatch_asking {s : Scene (σ × Signed)} {n : Node Pipe}
    (h : Puts asks who ((eng.signed who).dispatch s n).2.world.2 ∨
      Puts asks who (((eng.asking asks).signed who).dispatch s n).2.world.2) :
    (eng.signed who).dispatch s n = ((eng.asking asks).signed who).dispatch s n := by
  cases hk : n.kind with
  | process name args =>
    simp only [dispatch, hk]
    rfl
  | request payload =>
    simp only [dispatch, hk]
    rfl
  | ai prompts model options =>
    simp only [dispatch, hk]
    rfl
  | switch cases =>
    simp only [dispatch, hk]
    rfl
  | userInput ui autofill =>
    simp only [dispatch, hk] at h ⊢
    exact dispatchUserInput_asking h

theorem turn_asking {token : Option String} {l : Loop (σ × Signed)}
    (h : Puts asks who ((eng.signed who).turn token l).scene.world.2 ∨
      Puts asks who (((eng.asking asks).signed who).turn token l).scene.world.2) :
    (eng.signed who).turn token l = ((eng.asking asks).signed who).turn token l := by
  obtain ⟨s, left⟩ := l
  have hcancel : ((eng.asking asks).signed who).isCancelled token s.world =
      (eng.signed who).isCancelled token s.world := by cases token <;> rfl
  cases hc : (eng.signed who).isCancelled token s.world with
  | true => rw [turn_cancelled _ hc, turn_cancelled _ (hcancel.trans hc)]
  | false =>
    have hc' := hcancel.trans hc
    cases hn : s.run.stack.top.current? with
    | none =>
      cases hb : s.run.stack.below with
      | nil =>
        rw [turn_root _ hc hn hb, turn_root _ hc' hn hb]
        rfl
      | cons parent rest =>
        rw [turn_case _ hc hn hb, turn_case _ hc' hn hb]
        rfl
    | some n =>
      cases left with
      | zero =>
        rw [turn_exhausted _ hc hn, turn_exhausted _ hc' hn]
        rfl
      | succ left =>
        rw [turn_node _ hc hn, turn_node _ hc' hn, (runNode_scene _ s n left).1,
          (runNode_scene _ s n left).1] at h
        rw [turn_node _ hc hn, turn_node _ hc' hn, runNode, runNode, dispatch_asking h]

theorem turn_keeps {eng : Engine σ} {d : Instant → Instant} {P : σ → Prop} {l : Loop σ}
    (h : eng.services.Agree eng.services l.scene.run.id d fun v v' => P v ∧ v = v')
    (hp : P l.scene.world) (token : Option String) : P (eng.turn token l).scene.world := by
  obtain ⟨hmore, hdone⟩ := kept_of_turn h hp token l.left
  cases ht : eng.turn token l with
  | more l' => exact hmore l' ht
  | done result s => exact hdone result s ht

theorem turn_signed_grows (token : Option String) (l : Loop (σ × Signed)) :
    l.scene.world.2 <+: ((eng.signed who).turn token l).scene.world.2 := by
  have hgrows (w : σ × Signed) (call : String × Call) (hw : l.scene.world.2 <+: w.2) :
      l.scene.world.2 <+: w.2 ++ [call] := hw.trans (List.prefix_append ..)
  have hkeeps : (eng.signed who).services.Agree (eng.signed who).services l.scene.run.id id
      fun v v' => l.scene.world.2 <+: v.2 ∧ v = v' := {
    process := fun ⟨hv, heq⟩ _ _ _ _ => heq ▸ ⟨rfl, hgrows _ _ hv, rfl⟩
    request := fun ⟨hv, heq⟩ _ _ _ => heq ▸ ⟨rfl, hgrows _ _ hv, rfl⟩
    chat := fun ⟨hv, heq⟩ _ _ _ => heq ▸ ⟨rfl, hgrows _ _ hv, rfl⟩
    render := fun ⟨hv, heq⟩ _ => heq ▸ ⟨rfl, hgrows _ _ hv, rfl⟩
    notify := fun ⟨hv, heq⟩ _ _ => heq ▸ ⟨hgrows _ _ hv, rfl⟩
    now := fun ⟨_, heq⟩ => heq ▸ rfl }
  exact turn_keeps hkeeps List.prefix_rfl token

variable {eng : Engine σ} {d : Instant → Instant} {asks : String → RenderRequest → Bool}
  {tokens : String → String → Prop} {R : String → σ → σ → Prop}

/-- A run takes the same turn in worlds that it cannot tell apart. -/
theorem turn_told (h : eng.services.Apart d asks tokens R) {run : Run} {w v : σ × Signed}
    (hw : Services.Told R run.id w v) {token : Option String}
    (ht : ∀ t, token = some t → tokens run.id t) {left : Nat}
    (hputs : Puts (asks run.id) run.id
      ((eng.signed run.id).turn token ⟨⟨run, v⟩, left⟩).scene.world.2) :
    Turn.Alike d (Services.Told R run.id) ((eng.signed run.id).turn token ⟨⟨run, w⟩, left⟩)
      ((eng.signed run.id).turn token ⟨⟨run, v⟩, left⟩) := by
  have hcancel (w v : σ × Signed) (hw : Services.Told R run.id w v) :
      ((eng.asking (asks run.id)).signed run.id).isCancelled token v =
        ((eng.asking (asks run.id)).signed run.id).isCancelled token w := by
    cases token with
    | none => rfl
    | some t => exact h.isCancelled hw.1 (ht t rfl)
  have hagree : ((eng.asking (asks run.id)).signed run.id).Agree
      ((eng.asking (asks run.id)).signed run.id) run.id d (Services.Told R run.id) :=
    ⟨h.own run.id, rfl, rfl⟩
  have hscene : Scene.Alike (Services.Told R run.id) ⟨run, w⟩ ⟨run, v⟩ := ⟨⟨_, rfl⟩, hw⟩
  have halike := turn_agree hagree hcancel hscene left
  -- With the calls of the run the questions that it puts are the same too.
  have hv := turn_asking (.inl hputs)
  have hputs' : Puts (asks run.id) run.id
      (((eng.asking (asks run.id)).signed run.id).turn token ⟨⟨run, w⟩, left⟩).scene.world.2 := by
    rw [Puts, halike.world.2, ← hv]
    exact hputs
  rw [turn_asking (.inr hputs'), hv]
  exact halike

theorem turn_unseen (h : eng.services.Apart d asks tokens R) {run : Run} {other : String}
    (hne : run.id ≠ other) {w : σ × Signed} {token : Option String} {left : Nat}
    (hputs : Puts (asks run.id) run.id
      ((eng.signed run.id).turn token ⟨⟨run, w⟩, left⟩).scene.world.2) :
    Services.Told R other w ((eng.signed run.id).turn token ⟨⟨run, w⟩, left⟩).scene.world := by
  rw [turn_asking (.inl hputs)]
  exact turn_keeps (h.unseen hne w) ⟨(h.equivalence other).refl _, rfl⟩ token

end Engine

end Pipework
