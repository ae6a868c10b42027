import Pipework.Proofs.Limit
import Pipework.Proofs.Prompts

/-!
# Starting a run over

A call of `exec` puts a run back to its first node. Of what earlier attempts have left only the
remembered prompts reach the new one: it goes as a new run of the pipe with that memory does. A new
run without the memory goes the same way until it chats at a node for which prompts are remembered.
-/

namespace Pipework

variable {σ : Type}

namespace PromptMemory

def held (m : PromptMemory) (key : String) : List Prompt := (Keyed.get? m key).getD []

def AlikeBeside (old m m' : PromptMemory) : Prop :=
  ∀ key, old.held key = [] → m.held key = m'.held key

variable {old m m' : PromptMemory}

theorem alikeBeside_nil : AlikeBeside old [] old := fun _ hkey => hkey.symm

theorem merged_congr {key : String} (h : m.held key = m'.held key) (ps : List Prompt) :
    m.merged key ps = m'.merged key ps := by
  unfold held at h
  simp only [merged, h]

theorem held_merge (key other : String) (ps : List Prompt) :
    (m.merge key ps).held other = if other = key then m.merged key ps else m.held other := by
  simp only [held, merge, Keyed.get?_put]
  split <;> rfl

theorem AlikeBeside.merge (h : AlikeBeside old m m') (key : String) (ps : List Prompt) :
    AlikeBeside old (m.merge key ps) (m'.merge key ps) := by
  intro other hother
  rw [held_merge, held_merge]
  split
  next heq =>
    subst heq
    exact merged_congr (h other hother) ps
  · exact h other hother

end PromptMemory

def Run.remembering (r : Run) (m : PromptMemory) : Run := { r with memory := m }

def Scene.remembering (s : Scene σ) (m : PromptMemory) : Scene σ :=
  { s with run := s.run.remembering m }

def Turn.remembering (m : PromptMemory) : Turn σ → Turn σ
  | .more l => .more ⟨l.scene.remembering m, l.left⟩
  | .done result s => .done result (s.remembering m)

namespace Run

variable (r : Run) (m : PromptMemory)

theorem pass_remembering (node : String) (output : Json) :
    (r.remembering m).pass node output = (r.pass node output).map (·.remembering m) := by
  simp only [pass, remembering]
  cases (r.stack.top.record node output).advance <;> rfl

theorem closeCase_remembering (ev : Evaluator) (parent : Frame) (rest : List Frame) :
    (r.remembering m).closeCase ev parent rest =
      (r.closeCase ev parent rest).map (·.remembering m) := by
  have hclose : (r.remembering m).close ev = r.close ev := rfl
  simp only [closeCase, hclose]
  cases r.close ev with
  | error e => rfl
  | ok c =>
    dsimp only
    cases parent.current? with
    | some n => exact pass_remembering { r with stack := _ } m n.name _
    | none =>
      dsimp only
      cases Frame.advance { parent with jump := c.1.or parent.jump } <;> rfl

theorem closeRoot_remembering (ev : Evaluator) :
    (r.remembering m).closeRoot ev =
      (r.closeRoot ev).map (Sum.map (·.remembering m) fun value => value) := by
  have hclose : (r.remembering m).close ev = r.close ev := rfl
  simp only [closeRoot, hclose]
  cases r.close ev with
  | error e => rfl
  | ok c =>
    obtain ⟨goto, output⟩ := c
    cases goto with
    | none => rfl
    | some target =>
      simp only [remembering]
      cases r.stack.top.pipe.indexOf? target <;> rfl

end Run

def Call.Unreminded (old : PromptMemory) (calls : List Call) : Prop :=
  ∀ sent c, Call.chat sent c ∈ calls → old.held (PromptMemory.key c.pipe c.node) = []

theorem Call.Unreminded.mono {old : PromptMemory} {calls calls' : List Call}
    (h : Unreminded old calls') (hp : calls <+: calls') : Unreminded old calls :=
  fun sent c hmem => h sent c (hp.subset hmem)

theorem Made.grows {P : Call → Prop} {w w' : σ × List Call} (h : Made P w w') : w.2 <+: w'.2 := by
  obtain ⟨new, hnew, -⟩ := h
  exact ⟨new, hnew.symm⟩

namespace Engine

variable (eng : Engine σ) {old m : PromptMemory} {token : Option String}

def SameStep (old : PromptMemory) (p q : Except RunError Step × Scene σ) : Prop :=
  ∃ m, q = (p.1, p.2.remembering m) ∧ old.AlikeBeside p.2.run.memory m

theorem finish_remembering (s : Scene σ) (n : Node Pipe) (hm : old.AlikeBeside s.run.memory m)
    (answer : Except NodeError Json × σ) :
    SameStep old (eng.finish s n answer) (eng.finish (s.remembering m) n answer) := by
  obtain ⟨answer, w⟩ := answer
  cases answer with
  | error e => exact ⟨m, rfl, hm⟩
  | ok raw => exact ⟨m, rfl, hm⟩

theorem readReply_remembering (s : Scene σ) (n : Node Pipe) (hm : old.AlikeBeside s.run.memory m)
    (answer : ChatReply × σ) :
    SameStep old (eng.readReply s n answer) (eng.readReply (s.remembering m) n answer) := by
  obtain ⟨⟨chunks, status⟩, w⟩ := answer
  cases status with
  | error e => exact ⟨m, rfl, hm⟩
  | ok raw =>
    simp only [readReply]
    split <;> exact ⟨m, rfl, hm⟩

theorem mem_notifyAll (progress : Option String) (c : CallContext) (chunks : List String)
    {w : σ × List Call} {call : Call} (h : call ∈ w.2) :
    call ∈ (eng.traced.notifyAll progress c chunks w).2 :=
  have hmade := eng.made_notifyAll progress c chunks w (P := fun _ => True) fun _ _ _ => trivial
  hmade.grows.subset h

theorem dispatchAi_remembering (s : Scene (σ × List Call)) (n : Node Pipe)
    (hm : old.AlikeBeside s.run.memory m) (prompts : List Prompt) (model : String) (options : Json)
    (hcalls : Call.Unreminded old
      (eng.traced.dispatchAi s n prompts model options).2.world.2) :
    SameStep old (eng.traced.dispatchAi s n prompts model options)
      (eng.traced.dispatchAi (s.remembering m) n prompts model options) := by
  have hdata : (s.remembering m).run.stack.top = s.run.stack.top := rfl
  simp only [dispatchAi, hdata] at hcalls ⊢
  cases hr : renderPrompts eng.traced.evaluator s.run.stack.top.dataValue prompts with
  | error e => exact ⟨m, rfl, hm⟩
  | ok rendered =>
    have hmerge := hm.merge (PromptMemory.key s.run.stack.top.pipe.id n.name) rendered
    cases ho : eng.traced.evaluator.resolve s.run.stack.top.dataValue options with
    | error e => exact ⟨_, rfl, hmerge⟩
    | ok options =>
      simp only [hr, ho, readReply_world] at hcalls
      have hchat (sent : ChatRequest) : Call.chat sent (s.run.callContext n) ∈
          (eng.traced.services.chat sent (s.run.callContext n) s.world).2.2 :=
        List.mem_append_right _ (List.mem_singleton_self _)
      have hkey : old.held (PromptMemory.key s.run.stack.top.pipe.id n.name) = [] :=
        hcalls _ _ (eng.mem_notifyAll _ _ _ (hchat _))
      have hsent := PromptMemory.merged_congr (hm _ hkey) rendered
      dsimp only
      rw [show (s.remembering m).run.memory.merged _ rendered = _ from hsent.symm]
      exact eng.traced.readReply_remembering _ n hmerge _

theorem dispatch_remembering (s : Scene (σ × List Call)) (n : Node Pipe)
    (hm : old.AlikeBeside s.run.memory m)
    (hcalls : Call.Unreminded old (eng.traced.dispatch s n).2.world.2) :
    SameStep old (eng.traced.dispatch s n) (eng.traced.dispatch (s.remembering m) n) := by
  have htop : (s.remembering m).run.stack.top = s.run.stack.top := rfl
  cases hk : n.kind with
  | process name written =>
    simp only [dispatch, hk, htop]
    cases eng.traced.evaluator.resolve s.run.stack.top.dataValue written with
    | error e => exact ⟨m, rfl, hm⟩
    | ok args => exact eng.traced.finish_remembering s n hm _
  | request written =>
    simp only [dispatch, hk, htop]
    cases eng.traced.evaluator.resolve s.run.stack.top.dataValue written with
    | error e => exact ⟨m, rfl, hm⟩
    | ok payload => exact eng.traced.finish_remembering s n hm _
  | ai prompts model options =>
    simp only [dispatch, hk] at hcalls ⊢
    exact eng.dispatchAi_remembering s n hm prompts model options hcalls
  | switch cases =>
    simp only [dispatch, hk]
    exact ⟨m, rfl, hm⟩
  | userInput ui autofill =>
    simp only [dispatch, hk, dispatchUserInput, htop]
    cases eng.traced.boundInput s.run.stack.top.data n with
    | error e => exact ⟨m, rfl, hm⟩
    | ok bound =>
      cases ui.isInteractive with
      | false => exact ⟨m, rfl, hm⟩
      | true =>
        cases eng.traced.seed s.run.stack.top.dataValue autofill with
        | error e => exact ⟨m, rfl, hm⟩
        | ok seed => exact eng.traced.finish_remembering s n hm _

theorem runNode_remembering (s : Scene (σ × List Call)) (n : Node Pipe) (left : Nat)
    (hm : old.AlikeBeside s.run.memory m)
    (hcalls : Call.Unreminded old (eng.traced.runNode s n left).scene.world.2) :
    ∃ m', eng.traced.runNode (s.remembering m) n left =
        (eng.traced.runNode s n left).remembering m' ∧
      old.AlikeBeside (eng.traced.runNode s n left).scene.run.memory m' := by
  obtain ⟨hworld, hmemory⟩ := eng.traced.runNode_scene s n left
  rw [hworld] at hcalls
  obtain ⟨m', hd, hm'⟩ := eng.dispatch_remembering s n hm hcalls
  refine ⟨m', ?_, hmemory ▸ hm'⟩
  unfold runNode
  rw [hd]
  rcases eng.traced.dispatch s n with ⟨step, t⟩
  cases step with
  | error e => rfl
  | ok step => cases step with
    | enter child => rfl
    | suspend snapshot => rfl
    | advance output =>
      dsimp only
      rw [show (t.remembering m').run.pass n.name output = _ from t.run.pass_remembering m' _ _]
      cases t.run.pass n.name output <;> rfl

/-- Unless it chats where prompts are remembered, a turn is the same with another memory. -/
theorem turn_remembering (token : Option String) (l : Loop (σ × List Call))
    (hm : old.AlikeBeside l.scene.run.memory m)
    (hcalls : Call.Unreminded old (eng.traced.turn token l).scene.world.2) :
    ∃ m', eng.traced.turn token ⟨l.scene.remembering m, l.left⟩ =
        (eng.traced.turn token l).remembering m' ∧
      old.AlikeBeside (eng.traced.turn token l).scene.run.memory m' := by
  obtain ⟨s, left⟩ := l
  cases hc : eng.traced.isCancelled token s.world with
  | true =>
    rw [turn_cancelled _ hc, turn_cancelled _ (s := s.remembering m) hc]
    exact ⟨m, rfl, hm⟩
  | false =>
    cases hn : s.run.stack.top.current? with
    | none =>
      cases hb : s.run.stack.below with
      | nil =>
        rw [turn_root _ hc hn hb, turn_root _ (s := s.remembering m) hc hn hb]
        rw [show (s.remembering m).run.closeRoot _ = _ from s.run.closeRoot_remembering m _]
        cases hr : s.run.closeRoot eng.traced.evaluator with
        | error e => exact ⟨m, rfl, hm⟩
        | ok c => cases c with
          | inl run =>
            obtain ⟨_, _, -, rfl⟩ := Run.closeRoot_eq hr
            exact ⟨m, rfl, hm⟩
          | inr value => exact ⟨m, rfl, hm⟩
      | cons parent rest =>
        rw [turn_case _ hc hn hb, turn_case _ (s := s.remembering m) hc hn hb]
        rw [show (s.remembering m).run.closeCase _ parent rest = _ from
          s.run.closeCase_remembering m _ parent rest]
        cases hr : s.run.closeCase eng.traced.evaluator parent rest with
        | error e => exact ⟨m, rfl, hm⟩
        | ok run =>
          obtain ⟨_, -, rfl⟩ := Run.closeCase_eq hr
          exact ⟨m, rfl, hm⟩
    | some n =>
      cases left with
      | zero =>
        rw [turn_exhausted _ hc hn, turn_exhausted _ (s := s.remembering m) hc hn]
        exact ⟨m, rfl, hm⟩
      | succ left =>
        rw [turn_node _ hc hn] at hcalls ⊢
        rw [turn_node _ (s := s.remembering m) hc hn]
        exact eng.runNode_remembering s n left hm hcalls

theorem runLoop_remembering (l : Loop (σ × List Call))
    (hm : old.AlikeBeside l.scene.run.memory m)
    (hcalls : Call.Unreminded old (eng.traced.runLoop token l).2.world.2) :
    ∃ m', eng.traced.runLoop token ⟨l.scene.remembering m, l.left⟩ =
      ((eng.traced.runLoop token l).1, (eng.traced.runLoop token l).2.remembering m') := by
  induction l using eng.traced.loop_induction token generalizing m with
  | done l result t ht =>
    rw [runLoop_of_done _ ht] at hcalls ⊢
    have hturn := eng.turn_remembering token l hm
    rw [ht] at hturn
    obtain ⟨m', hturn, -⟩ := hturn hcalls
    exact ⟨m', runLoop_of_done _ hturn⟩
  | more l l' ht ih =>
    rw [runLoop_of_more _ ht] at hcalls ⊢
    have hturn := eng.turn_remembering token l hm
    rw [ht] at hturn
    -- The calls of the turn are among those of the loop.
    obtain ⟨m', hturn, hm'⟩ := hturn (hcalls.mono (eng.made_runLoop token l').grows)
    rw [runLoop_of_more _ hturn]
    exact ih hm' hcalls

end Engine

namespace Attempt

def anew (a : Attempt) (p : Pipe) : Attempt :=
  { ((create a.run.id p).withGlobal a.run.global).withSid a.run.sid with token := a.token }

def remembering (a : Attempt) (m : PromptMemory) : Attempt := { a with run := a.run.remembering m }

theorem restart_anew {a : Attempt} {p : Pipe} (h : a.run.stack.InPlace p) (ev : Evaluator)
    (input : List Json) :
    a.run.restart ev input =
      ((a.anew p).run.restart ev input).map (·.remembering a.run.memory) := by
  have hpipe : (a.anew p).run.pipe = a.run.pipe := h.root.symm
  simp only [Run.restart, hpipe]
  rw [show (a.anew p).run.global = a.run.global from rfl,
    show (a.anew p).run.sid = a.run.sid from rfl]
  cases (Frame.root a.run.pipe a.run.global a.run.sid).bind ev input <;> rfl

theorem restart_remembering (a : Attempt) (m : PromptMemory) (ev : Evaluator)
    (input : List Json) :
    (a.remembering m).run.restart ev input = (a.run.restart ev input).map (·.remembering m) := by
  have hpipe : (a.remembering m).run.pipe = a.run.pipe := rfl
  simp only [Run.restart, hpipe]
  rw [show (a.remembering m).run.global = a.run.global from rfl,
    show (a.remembering m).run.sid = a.run.sid from rfl]
  cases (Frame.root a.run.pipe a.run.global a.run.sid).bind ev input <;> rfl

theorem memory_restart_anew {a : Attempt} {p : Pipe} {ev : Evaluator} {input : List Json} {r : Run}
    (h : (a.anew p).run.restart ev input = .ok r) : r.memory = [] := by
  obtain ⟨f, -, rfl⟩ := Run.restart_root h
  rfl

end Attempt

namespace Engine

def seen (out : Except RunError Ending × ParkedRuns × (σ × List Call)) :
    Except RunError Ending × σ × List Call := (out.1, out.2.2)

theorem seen_driveFrom (eng : Engine σ) {a b : Attempt} (hid : b.token = a.token)
    (ready : Except RunError Run) (parked parked' : ParkedRuns) (w : σ × List Call) :
    seen (eng.traced.conclude b parked' (eng.traced.driveFrom b ready w)) =
      seen (eng.traced.conclude a parked (eng.traced.driveFrom a ready w)) := by
  cases ready with
  | error e => rfl
  | ok r =>
    simp only [seen, conclude, driveFrom, hid]

/-- Whatever an abandoned attempt has left, a run that is started over does what a new run with the
same id, session, global data and remembered prompts does. It does what a new run with nothing to
remember does, if that one chats at no node for which prompts are remembered. -/
theorem restart_clean (eng : Engine σ) (w : σ) {before after : List (Action σ)} {act : Action σ}
    {id : String} {p : Pipe} (hbegins : act.Begins (eng.play (.init w) before) id p) :
    ∀ a parked,
      Attempt.takeUp (eng.play (.init w) (before ++ act :: after)).parked id = .ok (a, parked) →
    ∀ b, a.Amended b → ∀ (input : List Json) (store store' : ParkedRuns) (v : σ),
      seen (eng.traced.exec b input store (v, [])) =
        seen (eng.traced.exec ((b.anew p).remembering b.run.memory) input store' (v, [])) ∧
      (Call.Unreminded b.run.memory (eng.traced.exec (b.anew p) input store' (v, [])).2.2.2 →
        seen (eng.traced.exec b input store (v, [])) =
          seen (eng.traced.exec (b.anew p) input store' (v, []))) := by
  intro a parked ht b hb input store store' v
  obtain ⟨e, he, -, rfl, -⟩ := System.takeUp_ok ht
  obtain ⟨hid, -⟩ := (System.sound_play eng w (before ++ act :: after)).entry he
  obtain ⟨log, hreached⟩ := eng.reaches_of_begins w hbegins (.parked he) hid
  obtain ⟨q, hrest, rfl⟩ := (eng.upkeep_positions fun _ q => q = p).amended hb
    ⟨p, hreached.atRest, rfl⟩
  have hready := Attempt.restart_anew hrest.stack eng.evaluator input
  refine ⟨?_, fun hcalls => ?_⟩
  · simp only [exec, traced_evaluator, Attempt.restart_remembering, ← hready]
    exact (eng.seen_driveFrom (a := b) (b := (b.anew q).remembering b.run.memory) rfl _ _ _ _).symm
  · simp only [exec, traced_evaluator, hready] at hcalls ⊢
    cases hr : (b.anew q).run.restart eng.evaluator input with
    | error e => rfl
    | ok run =>
      have hm : b.run.memory.AlikeBeside run.memory b.run.memory := by
        rw [Attempt.memory_restart_anew hr]
        exact PromptMemory.alikeBeside_nil
      rw [hr] at hcalls
      obtain ⟨m, hm⟩ := eng.runLoop_remembering ⟨⟨run, (v, [])⟩, eng.settings.maxSteps⟩ hm hcalls
      have hdrive : eng.traced.drive b.token ⟨run.remembering b.run.memory, (v, [])⟩ = _ := hm
      simp only [Except.map, driveFrom, hdrive, seen, conclude]
      rfl

end Engine

def inputAt (i : Nat) (data : Json) : Json :=
  match data with
  | .obj fields => match Keyed.get? fields "input" with
    | some (.arr items) => items.getD i .null
    | _ => .null
  | _ => .null

def recallEngine : Engine Nat :=
  { countingEngine with
    evaluator :=
      ⟨fun _ data => .ok (inputAt 1 data), fun t data => .ok (inputAt 0 data == .str t)⟩ }

def recallCases : List (String × Definition) :=
  [("chat",
      ⟨none, none, [{ plainNode "think" with prompts := [⟨"user", none, "latest"⟩] }], none, none,
        none, none, none⟩),
    ("default", ⟨none, none, [], none, none, none, none, none⟩)]

def recallDefinition : Definition :=
  ⟨none, some "main",
    [{ plainNode "pick" with cases := some recallCases },
      { plainNode "ask" with ui := some "web" }],
    none, none, none, none, none⟩

def recallSystem : System Nat :=
  recallEngine.play (.init 0)
    [.start "r" recallDefinition.built, .exec 0 [.str "chat", .str "first"], .turn 0, .turn 0,
      .turn 0, .turn 0, .settle 0, .drop 0]

theorem Call.unreminded_of_chatted {old : PromptMemory} {calls : List Call}
    (h : calls.filterMap Call.chatted? = []) : Unreminded old calls := by
  intro sent c hmem
  have hnone := List.filterMap_eq_nil_iff.mp h _ hmem
  cases hnone

def Attempt.chats (a : Attempt) (input : List Json) : List (String × String × List Prompt) :=
  (recallEngine.traced.exec a input .empty (0, [])).2.2.2.filterMap Call.chatted?

theorem restart_clean_recallSystem :
    ∃ a parked, Attempt.takeUp recallSystem.parked "r" = .ok (a, parked) ∧
      a.run.memory.held "main.pick#chat#think" = [⟨"user", none, "first"⟩] ∧
      Engine.seen (recallEngine.traced.exec a [.str "skip"] .empty (0, [])) =
        Engine.seen (recallEngine.traced.exec (a.anew recallDefinition.built) [.str "skip"] .empty
          (0, [])) := by
  have hbegins : Action.Begins (recallEngine.play (.init 0) [])
      (.start "r" recallDefinition.built) "r" recallDefinition.built :=
    .start (by simp [Engine.play, System.init])
  have hheld : (Attempt.takeUp recallSystem.parked "r").toOption.map (fun x =>
      (x.1.run.memory.held "main.pick#chat#think",
        (x.1.anew recallDefinition.built).chats [.str "skip"])) =
      some ([⟨"user", none, "first"⟩], []) := by decide +kernel
  cases ht : Attempt.takeUp recallSystem.parked "r" with
  | error e =>
    rw [ht] at hheld
    cases hheld
  | ok x =>
    obtain ⟨a, parked⟩ := x
    rw [ht] at hheld
    simp only [Except.toOption, Option.map_some, Option.some.injEq, Prod.mk.injEq] at hheld
    obtain ⟨hheld, hchats⟩ := hheld
    have hclean := recallEngine.restart_clean 0 hbegins a parked ht a .same
      [.str "skip"] .empty .empty 0
    exact ⟨a, parked, rfl, hheld, hclean.2 (Call.unreminded_of_chatted hchats)⟩

/-- The run that is started over sends the prompt of the abandoned attempt once more. -/
theorem reminded_recallSystem :
    Pipe.build "" recallDefinition = .ok recallDefinition.built ∧
      ∃ a parked, Attempt.takeUp recallSystem.parked "r" = .ok (a, parked) ∧
        a.chats [.str "chat", .str "second"] =
          [("main.pick#chat", "think", [⟨"user", none, "first"⟩, ⟨"user", none, "second"⟩])] ∧
        (a.anew recallDefinition.built).chats [.str "chat", .str "second"] =
          [("main.pick#chat", "think", [⟨"user", none, "second"⟩])] := by
  have hchats : (Attempt.takeUp recallSystem.parked "r").toOption.map (fun x =>
      (x.1.chats [.str "chat", .str "second"],
        (x.1.anew recallDefinition.built).chats [.str "chat", .str "second"])) =
      some ([("main.pick#chat", "think", [⟨"user", none, "first"⟩, ⟨"user", none, "second"⟩])],
        [("main.pick#chat", "think", [⟨"user", none, "second"⟩])]) := by decide +kernel
  refine ⟨Definition.build_built (by decide +kernel), ?_⟩
  cases ht : Attempt.takeUp recallSystem.parked "r" with
  | error e =>
    rw [ht] at hchats
    cases hchats
  | ok x =>
    rw [ht] at hchats
    simp only [Except.toOption, Option.map_some, Option.some.injEq, Prod.mk.injEq] at hchats
    exact ⟨x.1, x.2, rfl, hchats⟩

end Pipework
