import Pipework.Proofs.Faithful
import Pipework.Proofs.Keys

/-!
# Whose prompts are sent

What is remembered under a key has been rendered at nodes with that key, and a chat is sent what is
remembered and what its own node has rendered. So where no two nodes have the same key, each node
sends only prompts of its own.
-/

namespace Pipework

variable {σ : Type}

def Prompt.RenderedFrom (ev : Evaluator) (prompts : List Prompt) (sent : Prompt) : Prop :=
  ∃ written ∈ prompts, ∃ data out, ev.render written.content data = .ok out ∧
    sent = { written with content := Json.text out }

theorem renderedFrom_of_renderPrompts {ev : Evaluator} {data : Json}
    {prompts rendered : List Prompt} (h : renderPrompts ev data prompts = .ok rendered) :
    ∀ sent ∈ rendered, sent.RenderedFrom ev prompts := by
  induction prompts generalizing rendered with
  | nil =>
    cases h
    simp
  | cons p ps ih =>
    unfold renderPrompts at h
    split at h
    · cases h
    next content hcontent =>
      split at h
      · cases h
      next rest hrest =>
        cases h
        intro sent hsent
        rcases List.mem_cons.mp hsent with rfl | hsent
        · exact ⟨p, List.mem_cons_self, data, content, hcontent, rfl⟩
        · obtain ⟨written, hwritten, hrendered⟩ := ih hrest sent hsent
          exact ⟨written, List.mem_cons_of_mem p hwritten, hrendered⟩

theorem Prompt.mem_of_fresh {prints : List String} {ps : List Prompt} {p : Prompt}
    (h : p ∈ Prompt.fresh prints ps) : p ∈ ps := by
  induction ps generalizing prints with
  | nil => cases h
  | cons q qs ih =>
    rw [Prompt.fresh] at h
    split at h
    · exact List.mem_cons_of_mem q (ih h)
    · rcases List.mem_cons.mp h with rfl | h
      · exact List.mem_cons_self
      · exact List.mem_cons_of_mem q (ih h)

def Prompt.UnderKey (ev : Evaluator) (p : Pipe) (key : String) (sent : Prompt) : Prop :=
  ∃ q n prompts model options, p.Inner q ∧ n ∈ q.nodes ∧ PromptMemory.key q.id n.name = key ∧
    n.kind = .ai prompts model options ∧ sent.RenderedFrom ev prompts

def PromptMemory.OfNodes (ev : Evaluator) (p : Pipe) (m : PromptMemory) : Prop :=
  ∀ key held, Keyed.get? m key = some held → ∀ sent ∈ held, sent.UnderKey ev p key

namespace PromptMemory.OfNodes

variable {ev : Evaluator} {p : Pipe} {m : PromptMemory} {key : String} {ps : List Prompt}

theorem merged (h : m.OfNodes ev p) (hps : ∀ sent ∈ ps, sent.UnderKey ev p key) :
    ∀ sent ∈ m.merged key ps, sent.UnderKey ev p key := by
  intro sent hsent
  rw [PromptMemory.merged] at hsent
  rcases List.mem_append.mp hsent with hheld | hfresh
  · cases hm : Keyed.get? m key with
    | none =>
      rw [hm] at hheld
      cases hheld
    | some held =>
      rw [hm] at hheld
      exact h key held hm sent hheld
  · exact hps sent (Prompt.mem_of_fresh hfresh)

theorem merge (h : m.OfNodes ev p) (hps : ∀ sent ∈ ps, sent.UnderKey ev p key) :
    (m.merge key ps).OfNodes ev p := by
  intro other held hheld
  rw [PromptMemory.merge, Keyed.get?_put] at hheld
  split at hheld
  next heq =>
    cases hheld
    subst heq
    exact h.merged hps
  · exact h other held hheld

end PromptMemory.OfNodes

inductive Remembers (ev : Evaluator) (r : Run) (n : Node Pipe) : PromptMemory → Prop
  | same : Remembers ev r n r.memory
  | merged {prompts rendered : List Prompt} {model : String} {options : Json} :
      n.kind = .ai prompts model options →
      renderPrompts ev r.stack.top.dataValue prompts = .ok rendered →
      Remembers ev r n (r.memory.merge (PromptMemory.key r.stack.top.pipe.id n.name) rendered)

def Call.Sends (ev : Evaluator) (r : Run) (n : Node Pipe) : Call → Prop
  | .chat sent _ => ∃ prompts model options rendered, n.kind = .ai prompts model options ∧
      renderPrompts ev r.stack.top.dataValue prompts = .ok rendered ∧
      sent.prompts = r.memory.merged (PromptMemory.key r.stack.top.pipe.id n.name) rendered
  | _ => True

namespace Engine

variable (eng : Engine σ)

theorem finish_run (s : Scene σ) (n : Node Pipe) (answer : Except NodeError Json × σ) :
    (eng.finish s n answer).2.run = s.run := by
  obtain ⟨answer, w⟩ := answer
  cases answer <;> rfl

theorem readReply_run (s : Scene σ) (n : Node Pipe) (answer : ChatReply × σ) :
    (eng.readReply s n answer).2.run = s.run := by
  obtain ⟨⟨chunks, status⟩, w⟩ := answer
  cases status with
  | error e => rfl
  | ok raw =>
    simp only [readReply]
    split <;> rfl

theorem remembers_of_dispatch (s : Scene σ) (n : Node Pipe) :
    Remembers eng.evaluator s.run n (eng.dispatch s n).2.run.memory := by
  cases hk : n.kind with
  | process name written | request written =>
    simp only [dispatch, hk]
    split
    · exact .same
    · rw [finish_run]
      exact .same
  | ai prompts model options =>
    simp only [dispatch, hk, dispatchAi]
    split
    · exact .same
    next rendered hrendered =>
      split
      · exact .merged hk hrendered
      · rw [readReply_run]
        exact .merged hk hrendered
  | switch cases =>
    simp only [dispatch, hk]
    exact .same
  | userInput ui autofill =>
    simp only [dispatch, hk, dispatchUserInput]
    split
    · exact .same
    · split
      · split
        · exact .same
        · rw [finish_run]
          exact .same
      · exact .same

theorem sends_of_dispatch (s : Scene (σ × List Call)) (n : Node Pipe) :
    Made (Call.Sends eng.evaluator s.run n) s.world (eng.traced.dispatch s n).2.world := by
  cases hk : n.kind with
  | process name written | request written =>
    simp only [dispatch, hk]
    split
    · exact .none rfl
    · rw [finish_world]
      exact .one rfl trivial
  | ai prompts model options =>
    simp only [dispatch, hk, dispatchAi]
    split
    · exact .none rfl
    next rendered hrendered =>
      split
      · exact .none rfl
      · rw [readReply_world]
        refine .trans ?_ (eng.made_notifyAll _ _ _ _ fun name hname chunk => trivial)
        exact .one rfl ⟨prompts, model, options, rendered, hk, hrendered, rfl⟩
  | switch cases =>
    simp only [dispatch, hk]
    exact .none rfl
  | userInput ui autofill =>
    simp only [dispatch, hk, dispatchUserInput]
    split
    · exact .none rfl
    · split
      · split
        · exact .none rfl
        · rw [finish_world]
          exact .one rfl trivial
      · exact .none rfl

variable {eng} {p : Pipe}

theorem underKey_of_renderPrompts {ev : Evaluator} {r : Run} {n : Node Pipe}
    {prompts rendered : List Prompt} {model : String} {options : Json}
    (hs : r.stack.InPlace p) (hn : r.current? = some n)
    (hk : n.kind = .ai prompts model options)
    (hr : renderPrompts ev r.stack.top.dataValue prompts = .ok rendered) :
    ∀ sent ∈ rendered, sent.UnderKey ev p (PromptMemory.key r.stack.top.pipe.id n.name) := by
  intro sent hsent
  exact ⟨_, n, prompts, model, options, hs.inner r.stack.top List.mem_cons_self,
    List.mem_of_getElem? hn, rfl, hk, renderedFrom_of_renderPrompts hr sent hsent⟩

theorem ofNodes_of_turn (token : Option String) {l : Loop σ} (hs : l.scene.run.stack.InPlace p)
    (h : l.scene.run.memory.OfNodes eng.evaluator p) :
    (eng.turn token l).scene.run.memory.OfNodes eng.evaluator p := by
  obtain ⟨-, hsame⟩ | ⟨n, hn, -, hturn⟩ := eng.scene_of_turn token l
  · rw [hsame]
    exact h
  · have hmemory := eng.remembers_of_dispatch l.scene n
    rw [hturn]
    generalize (eng.dispatch l.scene n).2.run.memory = m at hmemory ⊢
    cases hmemory with
    | same => exact h
    | merged hk hrendered => exact h.merge (underKey_of_renderPrompts hs hn hk hrendered)

theorem Reaches.ofNodes {r : Run} {log : List (String × Json)} (hr : eng.Reaches p r log) :
    r.memory.OfNodes eng.evaluator p := by
  induction hr with
  | start id =>
    intro key held hheld
    cases hheld
  | global global _ ih => exact ih
  | sid sid _ ih => exact ih
  | restart _ hr ih =>
    obtain ⟨f, -, rfl⟩ := Run.restart_root hr
    exact ih
  | answer _ _ hr ih =>
    obtain ⟨_, _, _, _, -, -, -, rfl⟩ := Run.answer_node hr
    exact ih
  | @more token l l' _ hreached _ ht ih =>
    have hmemory := ofNodes_of_turn token hreached.atRest.stack ih
    rw [ht] at hmemory
    exact hmemory
  | @done token l result t _ hreached _ ht ih =>
    have hmemory := ofNodes_of_turn token hreached.atRest.stack ih
    rw [ht] at hmemory
    exact hmemory

theorem sends_of_turn (eng : Engine σ) (token : Option String) (l : Loop (σ × List Call)) :
    Made (fun call => ∃ n, l.scene.run.current? = some n ∧
      call.Sends eng.evaluator l.scene.run n) l.scene.world
      (eng.traced.turn token l).scene.world :=
  eng.made_turn_of token l fun n _ => eng.sends_of_dispatch l.scene n

end Engine

theorem Prompt.UnderKey.own {ev : Evaluator} {p q : Pipe} {n : Node Pipe} {sent : Prompt}
    (hsep : ∀ q, p.Inner q → q.Separable) (hq : p.Inner q) (hn : n ∈ q.nodes)
    (h : sent.UnderKey ev p (PromptMemory.key q.id n.name)) {prompts : List Prompt}
    {model : String} {options : Json} (hk : n.kind = .ai prompts model options) :
    sent.RenderedFrom ev prompts := by
  obtain ⟨q', n', prompts', model', options', hq', hn', hkey, hk', hrendered⟩ := h
  obtain ⟨place, hplace⟩ := hq.exists_at
  obtain ⟨place', hplace'⟩ := hq'.exists_at
  obtain ⟨i, hi⟩ := List.mem_iff_getElem?.mp hn
  obtain ⟨i', hi'⟩ := List.mem_iff_getElem?.mp hn'
  obtain ⟨rfl, rfl⟩ := hplace'.key_inj hsep hplace hi' hi hkey
  obtain rfl := hplace'.unique hplace
  obtain rfl := Option.some.inj (hi'.symm.trans hi)
  obtain ⟨rfl, -⟩ := NodeKind.ai.inj (hk'.symm.trans hk)
  exact hrendered

/-- In the tree that is built of a separable definition different nodes have different keys.
Whenever a run of it chats, all prompts that are sent have been rendered from those of the node that
the run is at. -/
theorem Engine.prompts_of_node (eng : Engine σ) (w : σ) {fresh : String} {d : Definition} {p : Pipe}
    (hb : Pipe.build fresh d = .ok p) (hd : d.Separable)
    {before after : List (Action (σ × List Call))} {act : Action (σ × List Call)} {id : String}
    (hbegins : act.Begins (eng.traced.play (.init (w, [])) before) id p) :
    let s := eng.traced.play (.init (w, [])) (before ++ act :: after)
    (∀ (place place' : List (Nat × Nat)) (q q' : Pipe) (i i' : Nat) (n n' : Node Pipe),
      p.At place q → p.At place' q' → q.nodes[i]? = some n → q'.nodes[i']? = some n' →
      PromptMemory.key q.id n.name = PromptMemory.key q'.id n'.name → place = place' ∧ i = i') ∧
    ∀ next, (∀ v, next ≠ .outside v) →
      Made (fun call => ∀ request c, call = .chat request c → ∃ h a run left, next = .turn h ∧
        s.hands h = some ⟨a, .running run left⟩ ∧
        (run.id = id → ∃ n prompts model options, run.current? = some n ∧
          n.kind = .ai prompts model options ∧
          ∀ sent ∈ request.prompts, sent.RenderedFrom eng.evaluator prompts))
        s.world (eng.traced.step s next).world := by
  intro s
  have hsep : ∀ q, p.Inner q → q.Separable := fun q hq => hq.separable hd hb
  refine ⟨fun place place' q q' i i' n n' hq hq' hn hn' hkey => hq.key_inj hsep hq' hn hn' hkey,
    fun next hnext => ?_⟩
  refine eng.made_step_of s hnext fun h a run left hturn hx => ?_
  refine (eng.sends_of_turn a.token ⟨⟨run, s.world⟩, left⟩).mono fun call hcall => ?_
  rintro request c rfl
  refine ⟨h, a, run, left, hturn, hx, fun hid => ?_⟩
  obtain ⟨log, hreached⟩ := eng.traced.reaches_of_begins _ hbegins (.running hx) hid
  obtain ⟨n, hn, prompts, model, options, rendered, hk, hrendered, hsent⟩ := hcall
  have hplace := hreached.atRest.stack
  have hmemory : run.memory.OfNodes eng.evaluator p := hreached.ofNodes
  have hmerged := hmemory.merged (underKey_of_renderPrompts hplace hn hk hrendered)
  refine ⟨n, prompts, model, options, hn, hk, fun sent hmem => ?_⟩
  rw [hsent] at hmem
  exact (hmerged sent hmem).own hsep (hplace.inner run.stack.top List.mem_cons_self)
    (List.mem_of_getElem? hn) hk

def chattingSystem : System (Nat × List Call) :=
  countingEngine.traced.play (.init (0, []))
    [.start "r" guardedPipe, .exec 0 [], .turn 0, .turn 0]

def Call.chatted? : Call → Option (String × String × List Prompt)
  | .chat sent c => some (c.pipe, c.node, sent.prompts)
  | _ => none

theorem own_chattingSystem :
    guardedDefinition.Separable ∧ ∃ run n prompts model options, chattingSystem.HasRun run ∧
      run.current? = some n ∧ n.kind = .ai prompts model options ∧
      Prompt.RenderedFrom countingEngine.evaluator prompts ⟨"user", none, "well"⟩ := by
  have hseparable : guardedDefinition.Separable := by decide +kernel
  have hbegins : Action.Begins (System.init ((0, []) : Nat × List Call)) (.start "r" guardedPipe)
      "r" guardedPipe := .start (by simp [System.init])
  have hrun : ((chattingSystem.hands 0).bind Hand.atWork?).map (·.id) = some "r" := by
    decide +kernel
  have hold : chattingSystem.world.2.filterMap Call.chatted? = [] := by decide +kernel
  have hchat : (countingEngine.traced.step chattingSystem (.turn 0)).world.2.filterMap
      Call.chatted? = [("main.pick#true", "think", [⟨"user", none, "well"⟩])] := by decide +kernel
  obtain ⟨-, hcalls⟩ := @Engine.prompts_of_node _ countingEngine 0 _ _ _ build_guardedDefinition
    hseparable [] [.exec 0 [], .turn 0, .turn 0] _ _ hbegins
  obtain ⟨new, hnew, hall⟩ := hcalls (.turn 0) (by simp)
  rw [List.nil_append] at hnew
  unfold chattingSystem at hrun hold hchat
  rw [hnew, List.filterMap_append, hold, List.nil_append] at hchat
  have hmem := List.mem_filterMap.mp (hchat ▸ List.mem_singleton_self _)
  obtain ⟨call, hcall, hsent⟩ := hmem
  cases call with
  | chat request c =>
    obtain ⟨-, -, hprompts⟩ : c.pipe = _ ∧ c.node = _ ∧ request.prompts = _ := by
      simpa [Call.chatted?] using hsent
    obtain ⟨h, a, run, left, hh, hx, hown⟩ := hall _ hcall request c rfl
    cases hh
    rw [List.nil_append] at hx
    rw [hx] at hrun
    have hid : run.id = "r" := Option.some.inj hrun
    obtain ⟨n, prompts, model, options, hn, hk, hrendered⟩ := hown hid
    refine ⟨hseparable, run, n, prompts, model, options, .running hx, hn, hk, ?_⟩
    exact hrendered _ (hprompts ▸ List.mem_singleton_self _)
  | process | request | render | hook => cases hsent

def joinedDefinition : Definition :=
  ⟨none, some "main",
    [{ plainNode "a" with cases := some [("true",
        ⟨none, none, [{ plainNode "default#y" with prompts := [⟨"user", none, "first"⟩] }],
          none, none, none, none, none⟩)] },
      { plainNode "a#true" with cases := some [("default",
        ⟨none, none, [{ plainNode "y" with prompts := [⟨"user", none, "second"⟩] }],
          none, none, none, none, none⟩)] }],
    none, none, none, none, none⟩

def joinedSystem : System (Nat × List Call) :=
  countingEngine.traced.play (.init (0, []))
    [.start "r" joinedDefinition.built, .exec 0 [], .turn 0, .turn 0, .turn 0, .turn 0, .turn 0]

/-- So the chats of the two cases have one memory, and the second is sent the prompt of the first.
-/
theorem shared_joinedSystem :
    Pipe.build "" joinedDefinition = .ok joinedDefinition.built ∧
      (∀ x ∈ joinedDefinition.within 1, ∀ n ∈ x.2.nodes, ∀ written ∈ n.cases,
        (written.map Prod.fst).Nodup) ∧
      PromptMemory.key "main.a#true" "default#y" = PromptMemory.key "main.a#true#default" "y" ∧
      joinedSystem.world.2.filterMap Call.chatted? =
        [("main.a#true", "default#y", [⟨"user", none, "first"⟩]),
          ("main.a#true#default", "y", [⟨"user", none, "first"⟩, ⟨"user", none, "second"⟩])] :=
  ⟨Definition.build_built (by decide +kernel), by decide +kernel, by decide +kernel,
    by decide +kernel⟩

end Pipework
