import Pipework.Proofs.Positions
import Pipework.Proofs.Trace

/-!
# Which calls a step makes

Only turns call services, and a turn makes the calls of the node that it runs.
-/

namespace Pipework

variable {σ : Type}

inductive Call.Of (r : Run) (n : Node Pipe) : Call → Prop
  | process {name : String} {written args : Json} : n.kind = .process name written →
      Of r n (.process name args (r.callContext n))
  | request {written payload : Json} : n.kind = .request written →
      Of r n (.request payload (r.callContext n))
  | chat {prompts : List Prompt} {model : String} {options : Json} {sent : ChatRequest} :
      n.kind = .ai prompts model options → sent.model = model →
      Of r n (.chat sent (r.callContext n))
  | render {ui : UiKind} {autofill : Option String} {shown : RenderRequest} :
      n.kind = .userInput ui autofill → shown.node = n.name → shown.label = n.label →
      Of r n (.render shown)
  | hook {prompts : List Prompt} {model : String} {options : Json} {name chunk : String}
      {timeout : Nat} : n.kind = .ai prompts model options →
      r.stack.top.pipe.progress = some name →
      Of r n (.hook (hookCall name (r.callContext n) timeout chunk))

def Call.Next (r : Run) (call : Call) : Prop := ∃ n, r.current? = some n ∧ call.Of r n

inductive Call.By (s : System σ) : Action σ → Call → Prop
  | turn {h : Nat} {a : Attempt} {run : Run} {left : Nat} {call : Call} :
      s.hands h = some ⟨a, .running run left⟩ → call.Next run → By s (.turn h) call

def Made (P : Call → Prop) (w w' : σ × List Call) : Prop :=
  ∃ new, w'.2 = w.2 ++ new ∧ ∀ call ∈ new, P call

namespace Made

variable {P Q : Call → Prop} {w w' w'' : σ × List Call}

theorem none (h : w'.2 = w.2) : Made P w w' := ⟨[], by simp [h], by simp⟩

theorem one {call : Call} (hw : w'.2 = w.2 ++ [call]) (h : P call) : Made P w w' := by
  refine ⟨[call], hw, fun other hmem => ?_⟩
  rw [List.mem_singleton.mp hmem]
  exact h

theorem trans (h : Made P w w') (h' : Made P w' w'') : Made P w w'' := by
  obtain ⟨first, hfirst, hall⟩ := h
  obtain ⟨second, hsecond, hall'⟩ := h'
  refine ⟨first ++ second, by rw [hsecond, hfirst, List.append_assoc], fun call hmem => ?_⟩
  rcases List.mem_append.mp hmem with hmem | hmem
  · exact hall call hmem
  · exact hall' call hmem

theorem mono (h : Made P w w') (hPQ : ∀ call, P call → Q call) : Made Q w w' := by
  obtain ⟨new, hnew, hall⟩ := h
  exact ⟨new, hnew, fun call hmem => hPQ call (hall call hmem)⟩

end Made

def Turn.scene : Turn σ → Scene σ
  | .more l => l.scene
  | .done _ s => s

namespace Engine

variable (eng : Engine σ)

theorem finish_world (s : Scene σ) (n : Node Pipe) (answer : Except NodeError Json × σ) :
    (eng.finish s n answer).2.world = answer.2 := by
  obtain ⟨answer, w⟩ := answer
  cases answer <;> rfl

theorem readReply_world (s : Scene σ) (n : Node Pipe) (answer : ChatReply × σ) :
    (eng.readReply s n answer).2.world =
      eng.notifyAll s.run.stack.top.pipe.progress (s.run.callContext n) answer.1.chunks
        answer.2 := by
  obtain ⟨⟨chunks, status⟩, w⟩ := answer
  cases status with
  | error e => rfl
  | ok raw =>
    simp only [readReply]
    split <;> rfl

theorem notifyAll_keeps {P : σ → Prop} {progress : Option String} (c : CallContext)
    (chunks : List String)
    (h : ∀ name, progress = some name → ∀ chunk w, P w →
      P (eng.services.notify (hookCall name c eng.settings.hookTimeout chunk) w))
    {w : σ} (hw : P w) : P (eng.notifyAll progress c chunks w) := by
  cases progress with
  | none => exact hw
  | some name =>
    unfold notifyAll
    dsimp only
    induction chunks generalizing w with
    | nil => exact hw
    | cons chunk chunks ih => exact ih (h name rfl chunk w hw)

theorem made_notifyAll {P : Call → Prop} (progress : Option String) (c : CallContext)
    (chunks : List String) (w : σ × List Call)
    (h : ∀ name, progress = some name →
      ∀ chunk, P (.hook (hookCall name c eng.settings.hookTimeout chunk))) :
    Made P w (eng.traced.notifyAll progress c chunks w) :=
  eng.traced.notifyAll_keeps (P := Made P w) c chunks
    (fun name hname chunk _ hmade => hmade.trans (.one rfl (h name hname chunk))) (.none rfl)

theorem made_dispatch (s : Scene (σ × List Call)) (n : Node Pipe) :
    Made (Call.Of s.run n) s.world (eng.traced.dispatch s n).2.world := by
  cases hk : n.kind with
  | process name written =>
    simp only [dispatch, hk]
    split
    · exact .none rfl
    · rw [finish_world]
      exact .one rfl (.process hk)
  | request written =>
    simp only [dispatch, hk]
    split
    · exact .none rfl
    · rw [finish_world]
      exact .one rfl (.request hk)
  | ai prompts model options =>
    simp only [dispatch, hk, dispatchAi]
    split
    · exact .none rfl
    · split
      · exact .none rfl
      · rw [readReply_world]
        refine .trans ?_ (eng.made_notifyAll _ _ _ _ fun name hname chunk => .hook hk hname)
        exact .one rfl (.chat hk rfl)
  | switch cases =>
    simp only [dispatch, hk]
    exact .none rfl
  | userInput ui autofill =>
    simp only [dispatch, hk, dispatchUserInput]
    split
    · exact .none rfl
    · split
      · split
        · exact .none rfl
        · rw [finish_world]
          exact .one rfl (.render hk rfl rfl)
      · exact .none rfl

theorem runNode_scene (s : Scene σ) (n : Node Pipe) (left : Nat) :
    (eng.runNode s n left).scene.world = (eng.dispatch s n).2.world ∧
      (eng.runNode s n left).scene.run.memory = (eng.dispatch s n).2.run.memory := by
  unfold runNode
  rcases eng.dispatch s n with ⟨step, t⟩
  cases step with
  | error e => exact ⟨rfl, rfl⟩
  | ok step => cases step with
    | enter child => exact ⟨rfl, rfl⟩
    | suspend snapshot => exact ⟨rfl, rfl⟩
    | advance output =>
      dsimp only
      cases hr : t.run.pass n.name output with
      | error e => exact ⟨rfl, rfl⟩
      | ok run =>
        obtain ⟨f, -, rfl⟩ := Run.pass_eq hr
        exact ⟨rfl, rfl⟩

theorem scene_of_turn (token : Option String) (l : Loop σ) :
    ((eng.turn token l).scene.world = l.scene.world ∧
      (eng.turn token l).scene.run.memory = l.scene.run.memory) ∨
    ∃ n, l.scene.run.current? = some n ∧
      (eng.turn token l).scene.world = (eng.dispatch l.scene n).2.world ∧
      (eng.turn token l).scene.run.memory = (eng.dispatch l.scene n).2.run.memory := by
  cases ht : eng.turn token l with
  | more l' =>
    cases eng.moves_of_turn ht with
    | advance hn _ hd _ | enter hn _ hd => exact .inr ⟨_, hn, by rw [hd]; rfl, by rw [hd]; rfl⟩
    | leave _ _ hr =>
      obtain ⟨f, -, rfl⟩ := Run.closeCase_eq hr
      exact .inl ⟨rfl, rfl⟩
    | again _ _ hr =>
      obtain ⟨target, i, -, rfl⟩ := Run.closeRoot_eq hr
      exact .inl ⟨rfl, rfl⟩
  | done result t =>
    cases eng.ends_of_turn ht with
    | failed _ hn _ hd | astray _ hn _ hd _ | paused _ hn _ hd =>
      exact .inr ⟨_, hn, by rw [hd]; rfl, by rw [hd]; rfl⟩
    | cancelled | exhausted | caseFailed | rootFailed | completed => exact .inl ⟨rfl, rfl⟩

/-- A turn makes the calls of the node that it runs. -/
theorem made_turn_of {P : Node Pipe → Call → Prop} (token : Option String)
    (l : Loop (σ × List Call))
    (hdispatch : ∀ n, l.scene.run.current? = some n →
      Made (P n) l.scene.world (eng.traced.dispatch l.scene n).2.world) :
    Made (fun call => ∃ n, l.scene.run.current? = some n ∧ P n call) l.scene.world
      (eng.traced.turn token l).scene.world := by
  obtain ⟨hworld, -⟩ | ⟨n, hn, hworld, -⟩ := eng.traced.scene_of_turn token l
  · exact .none (congrArg Prod.snd hworld)
  · rw [hworld]
    exact (hdispatch n hn).mono fun call hcall => ⟨n, hn, hcall⟩

theorem made_turn (token : Option String) (l : Loop (σ × List Call)) :
    Made (Call.Next l.scene.run) l.scene.world (eng.traced.turn token l).scene.world :=
  eng.made_turn_of token l fun n _ => eng.made_dispatch l.scene n

theorem world_of_turn_step {s : System σ} {h : Nat} {a : Attempt} {run : Run} {left : Nat}
    (hx : s.hands h = some ⟨a, .running run left⟩) :
    (eng.step s (.turn h)).world = (eng.turn a.token ⟨⟨run, s.world⟩, left⟩).scene.world := by
  simp only [step, hx]
  cases eng.turn a.token ⟨⟨run, s.world⟩, left⟩ <;> rfl

theorem made_step_of {P : Call → Prop} (s : System (σ × List Call)) {act : Action (σ × List Call)}
    (hact : ∀ w, act ≠ .outside w)
    (hturn : ∀ h a run left, act = .turn h → s.hands h = some ⟨a, .running run left⟩ →
      Made P s.world (eng.traced.turn a.token ⟨⟨run, s.world⟩, left⟩).scene.world) :
    Made P s.world (eng.traced.step s act).world := by
  by_cases ht : ∃ h, act = .turn h
  · obtain ⟨h, rfl⟩ := ht
    by_cases hx : ∃ a run left, s.hands h = some ⟨a, .running run left⟩
    · obtain ⟨a, run, left, hx⟩ := hx
      rw [eng.traced.world_of_turn_step hx]
      exact hturn h a run left rfl hx
    · simp only [step]
      split
      next a run left hx' => exact absurd ⟨a, run, left, hx'⟩ hx
      · exact .none rfl
  · have hworld := eng.traced.world_step (s := s) act (fun h heq => ht ⟨h, heq⟩) hact
    exact .none (congrArg Prod.snd hworld)

theorem made_step (s : System (σ × List Call)) {act : Action (σ × List Call)}
    (hact : ∀ w, act ≠ .outside w) :
    Made (Call.By s act) s.world (eng.traced.step s act).world := by
  refine eng.made_step_of s hact fun h a run left hturn hx => ?_
  subst hturn
  exact (eng.made_turn a.token ⟨⟨run, s.world⟩, left⟩).mono fun call hcall => .turn hx hcall

end Engine

end Pipework
