import Pipework.Proofs.Faithful
import Pipework.Proofs.Recursion

/-!
# What is recorded when a node has finished

A node that gets a reply, in line or as the answer to a question, is recorded with the output that
its mapping makes of the reply. A switch finishes when its case ends, and is recorded with the
result of the case as it is: its mapping is passed over.
-/

namespace Pipework

variable {σ : Type}

/-- What a node makes of a raw result: the result itself, or what its mapping says about the data
with the result as the latest output. -/
inductive Node.Yields (ev : Evaluator) (n : Node Pipe) (data : Keyed Json) (raw : Json) :
    Except NodeError Json → Prop
  | plain : n.output = none → Yields ev n data raw (.ok raw)
  | mapped {spec : Json} : n.output = some spec →
      Yields ev n data raw (ev.resolve (.obj (Keyed.put data "output" raw)) spec)

theorem Node.exists_yields (ev : Evaluator) (n : Node Pipe) (data : Keyed Json) (raw : Json) :
    ∃ out, n.Yields ev data raw out := by
  cases hspec : n.output with
  | none => exact ⟨_, .plain hspec⟩
  | some spec => exact ⟨_, .mapped hspec⟩

namespace Run

variable {ev : Evaluator} {r : Run} {n : Node Pipe}

theorem mapOutput_of_yields {raw : Json} {out : Except NodeError Json}
    (h : n.Yields ev r.stack.top.data raw out) :
    r.mapOutput ev n raw = out.mapError (r.nodeError n) := by
  cases h with
  | plain hspec => simp only [mapOutput, hspec, Except.mapError]
  | mapped hspec => simp only [mapOutput, hspec]

theorem mapOutput_ok {raw output : Json} :
    r.mapOutput ev n raw = .ok output ↔ n.Yields ev r.stack.top.data raw (.ok output) := by
  obtain ⟨out, hout⟩ := n.exists_yields ev r.stack.top.data raw
  refine ⟨fun h => ?_, fun h => mapOutput_of_yields h⟩
  rw [mapOutput_of_yields hout] at h
  cases out with
  | error e => cases h
  | ok output' =>
    cases h
    exact hout

theorem answer_of_yields {answers : List Json} {f : Frame} {out : Except NodeError Json}
    (hj : r.stack.top.jump = none) (hn : r.current? = some n)
    (hb : r.stack.top.bind ev (r.stack.top.input ++ answers) = .ok f)
    (h : n.Yields ev f.data (answerValue answers) out) :
    r.answer ev answers = (out.mapError (r.nodeError n)).map fun output =>
      { r with stack := ⟨f.next n.name output, r.stack.below⟩, paused := none } := by
  obtain ⟨hpipe, hjump⟩ : f.pipe = r.stack.top.pipe ∧ f.jump = none := by
    obtain ⟨_, rfl⟩ := Frame.bind_eq hb
    exact ⟨rfl, hj⟩
  have hn' : r.stack.top.current? = some n := hn
  -- The input has been bound by the time the mapping is resolved.
  have houtput := mapOutput_of_yields (r := ({ r with paused := none } : Run).withTop f) h
  simp only [answer, hn', hb, houtput]
  cases out with
  | error e => simp only [Except.mapError, Except.map, nodeError, withTop, hpipe]
  | ok output =>
    have ha := Frame.advance_record_next hjump n.name output
    simp only [Except.mapError, Except.map, pass, withTop, ha]

end Run

inductive Turn.Leaves (r : Run) (n : Node Pipe) (left : Nat) :
    Except NodeError Json → Turn σ → Prop
  | recorded {output : Json} {m : PromptMemory} {v : σ} :
      Leaves r n left (.ok output) (.more ⟨⟨{ r with
        memory := m, stack := ⟨r.stack.top.next n.name output, r.stack.below⟩ }, v⟩, left⟩)
  | failed {e : NodeError} {m : PromptMemory} {v : σ} :
      Leaves r n left (.error e) (.done (.error (r.nodeError n e)) ⟨{ r with memory := m }, v⟩)

namespace Engine

variable (eng : Engine σ)

inductive Replies (s : Scene σ) (n : Node Pipe) : Json → Prop
  | process {name : String} {written args raw : Json} : n.kind = .process name written →
      eng.evaluator.resolve s.run.stack.top.dataValue written = .ok args →
      (eng.services.process name args (s.run.callContext n) s.world).1 = .ok raw →
      Replies s n raw
  | request {written payload raw : Json} : n.kind = .request written →
      eng.evaluator.resolve s.run.stack.top.dataValue written = .ok payload →
      (eng.services.request payload (s.run.callContext n) s.world).1 = .ok raw →
      Replies s n raw
  | chat {written prompts : List Prompt} {model body : String} {options resolved : Json}
      {chunks : List String} : n.kind = .ai written model options →
      renderPrompts eng.evaluator s.run.stack.top.dataValue written = .ok prompts →
      eng.evaluator.resolve s.run.stack.top.dataValue options = .ok resolved →
      (eng.services.chat
        ⟨model, s.run.memory.merged (PromptMemory.key s.run.stack.top.pipe.id n.name) prompts,
          resolved⟩
        (s.run.callContext n) s.world).1 = ⟨chunks, .ok body⟩ →
      (String.join chunks).isEmpty = false → Replies s n (replyValue (String.join chunks))
  | terminal {ui : UiKind} {autofill : Option String} {bound : Json} {seed lines : List String} :
      n.kind = .userInput ui autofill → ui.isInteractive = true →
      eng.boundInput s.run.stack.top.data n = .ok bound →
      eng.seed s.run.stack.top.dataValue autofill = .ok seed →
      (eng.services.render ⟨n.name, n.label, bound, seed⟩ s.world).1 = .ok lines →
      Replies s n (.str (Text.join "\n" lines))

variable {eng} {s s' : Scene σ} {n : Node Pipe} {raw output : Json}

theorem finish_fst {answer : Except NodeError Json × σ} (h : answer.1 = .ok raw) :
    (eng.finish s n answer).1 = (s.run.mapOutput eng.evaluator n raw).map .advance := by
  obtain ⟨answer, w⟩ := answer
  dsimp only at h
  subst h
  rfl

theorem readReply_fst {answer : ChatReply × σ} {chunks : List String} {body : String}
    (h : answer.1 = ⟨chunks, .ok body⟩) (htext : (String.join chunks).isEmpty = false) :
    (eng.readReply s n answer).1 =
      (s.run.mapOutput eng.evaluator n (replyValue (String.join chunks))).map .advance := by
  obtain ⟨reply, w⟩ := answer
  dsimp only at h
  subst h
  simp only [readReply, htext]
  rfl

theorem reply_of_readReply {answer : ChatReply × σ}
    (h : eng.readReply s n answer = (.ok (.advance output), s')) :
    ∃ chunks body, answer.1 = ⟨chunks, .ok body⟩ ∧ (String.join chunks).isEmpty = false ∧
      s.run.mapOutput eng.evaluator n (replyValue (String.join chunks)) = .ok output := by
  obtain ⟨⟨chunks, status⟩, w⟩ := answer
  cases status with
  | error e => cases h
  | ok body =>
    cases htext : (String.join chunks).isEmpty with
    | true =>
      simp only [readReply, htext] at h
      cases h
    | false =>
      have hmap := congrArg Prod.fst h
      rw [readReply_fst rfl htext] at hmap
      obtain ⟨output', houtput, heq⟩ := map_eq_ok hmap
      cases heq
      exact ⟨chunks, body, rfl, htext, houtput⟩

theorem dispatch_of_replies (h : eng.Replies s n raw) :
    (eng.dispatch s n).1 = (s.run.mapOutput eng.evaluator n raw).map .advance := by
  cases h with
  | process hk hargs hreply =>
    simp only [dispatch, hk, hargs]
    exact finish_fst hreply
  | request hk hpayload hreply =>
    simp only [dispatch, hk, hpayload]
    exact finish_fst hreply
  | @chat _ prompts _ _ _ _ _ hk hprompts hoptions hreply htext =>
    simp only [dispatch, hk, dispatchAi, hprompts, hoptions]
    exact readReply_fst hreply htext
  | terminal hk hui hbound hseed hreply =>
    simp only [dispatch, hk, dispatchUserInput, hbound, hui, hseed]
    exact finish_fst (by rw [hreply]; rfl)

theorem reply_of_finish {answer : Except NodeError Json × σ}
    (h : eng.finish s n answer = (.ok (.advance output), s')) :
    ∃ raw, answer.1 = .ok raw ∧ s.run.mapOutput eng.evaluator n raw = .ok output := by
  obtain ⟨answer, w⟩ := answer
  cases answer with
  | error e => cases h
  | ok raw =>
    obtain ⟨output', houtput, heq⟩ := map_eq_ok (congrArg Prod.fst h)
    cases heq
    exact ⟨raw, rfl, houtput⟩

theorem replies_of_dispatch (h : eng.dispatch s n = (.ok (.advance output), s')) :
    ∃ raw, eng.Replies s n raw ∧
      n.Yields eng.evaluator s.run.stack.top.data raw (.ok output) := by
  cases hk : n.kind with
  | process name written =>
    simp only [dispatch, hk] at h
    split at h
    · cases h
    next args hargs =>
      obtain ⟨raw, hreply, houtput⟩ := reply_of_finish h
      exact ⟨raw, .process hk hargs hreply, Run.mapOutput_ok.mp houtput⟩
  | request written =>
    simp only [dispatch, hk] at h
    split at h
    · cases h
    next payload hpayload =>
      obtain ⟨raw, hreply, houtput⟩ := reply_of_finish h
      exact ⟨raw, .request hk hpayload hreply, Run.mapOutput_ok.mp houtput⟩
  | ai written model options =>
    simp only [dispatch, hk, dispatchAi] at h
    split at h
    · cases h
    next prompts hprompts =>
      split at h
      · cases h
      next resolved hoptions =>
        obtain ⟨chunks, body, hreply, htext, houtput⟩ := reply_of_readReply h
        exact ⟨_, .chat hk hprompts hoptions hreply htext, Run.mapOutput_ok.mp houtput⟩
  | switch cases =>
    simp only [dispatch, hk, dispatchSwitch, Prod.mk.injEq] at h
    obtain ⟨hstep, -⟩ := h
    split at hstep
    · cases hstep
    · cases hstep
    next c _ =>
      obtain ⟨child, -, hchild⟩ := map_eq_ok hstep
      cases hchild
  | userInput ui autofill =>
    simp only [dispatch, hk, dispatchUserInput] at h
    split at h
    · cases h
    next bound hbound =>
      split at h
      next hui =>
        split at h
        · cases h
        next seed hseed =>
          obtain ⟨raw, hraw, houtput⟩ := reply_of_finish h
          obtain ⟨lines, hreply, rfl⟩ := map_eq_ok hraw
          exact ⟨_, .terminal hk hui hbound hseed hreply, Run.mapOutput_ok.mp houtput⟩
      · cases h

variable (eng) in
/-- What a turn that is not the last does to the frames. A node that has got a reply is recorded
with what its mapping makes of it; the switch of a case that is at its end is recorded with the
result of the case, and what it would make of that result does not matter. Nothing else is recorded:
a case that is entered puts its frame over the others, and a jump only moves the cursor. -/
inductive Proceeds (s : Scene σ) : Stack → Prop
  | node {n : Node Pipe} {raw output : Json} : s.run.current? = some n → eng.Replies s n raw →
      n.Yields eng.evaluator s.run.stack.top.data raw (.ok output) →
      Proceeds s ⟨s.run.stack.top.next n.name output, s.run.stack.below⟩
  | entered {n : Node Pipe} {cases : List (Case Pipe)} {c : Case Pipe} {child : Frame} :
      s.run.current? = some n → n.kind = .switch cases →
      selectCase eng.evaluator s.run.stack.top.dataValue none cases = .ok (some c) →
      Frame.child eng.evaluator c.pipe s.run.stack.top = .ok child →
      Proceeds s (s.run.stack.push child)
  | switch {parent f : Frame} {rest : List Frame} {n : Node Pipe} {goto : Option String}
      {output : Option Json} : s.run.current? = none → s.run.stack.below = parent :: rest →
      parent.current? = some n → n.HasCase s.run.stack.top.pipe →
      s.run.close eng.evaluator = .ok (goto, output) →
      parent.follow n.name (s.run.stack.top.result output) goto = .ok f →
      Proceeds s ⟨f, rest⟩
  | again (i : Nat) : s.run.current? = none → s.run.stack.below = [] →
      Proceeds s ⟨{ s.run.stack.top with cursor := i }, []⟩

variable {p : Pipe} {token : Option String}

theorem proceeds_of_more {l l' : Loop σ} (hp : l.scene.run.stack.InPlace p)
    (h : eng.turn token l = .more l') : eng.Proceeds l.scene l'.scene.run.stack := by
  obtain ⟨⟨⟨id, sid, global, memory, ⟨top, below⟩, paused⟩, w⟩, left⟩ := l
  have hjump := hp.innermost.jump
  cases eng.moves_of_turn h with
  | advance hn _ hd hf =>
    obtain ⟨raw, hreply, houtput⟩ := replies_of_dispatch hd
    obtain ⟨hs, -⟩ := eng.sameRun_of_dispatch _ _ hd
    rw [hs, Frame.advance_record_next hjump] at hf
    cases hf
    simp only [Run.withTop, hs]
    exact .node hn hreply houtput
  | enter hn _ hd =>
    obtain ⟨cases, c, hk, hc, hchild, rfl⟩ := enter_of_dispatch hd
    exact .entered hn hk hc hchild
  | leave hn hb hr =>
    dsimp only at hb
    subst hb
    obtain ⟨hrest, n, hparent, hcase⟩ := hp.pop
    -- No jump is pending at the switch, so the case alone decides where to go on.
    rw [Run.closeCase_follow hrest.innermost.jump hparent] at hr
    split at hr
    · cases hr
    next goto output hclose =>
      split at hr
      · cases hr
      next f hf =>
        cases hr
        exact .switch hn rfl hparent hcase hclose hf
  | again hn hb hr =>
    dsimp only at hb
    subst hb
    obtain ⟨target, i, -, rfl⟩ := Run.closeRoot_eq hr
    exact .again i hn rfl

theorem turn_of_replies {r : Run} {v : σ} {out : Except NodeError Json}
    (hc : eng.isCancelled token v = false) (hj : r.stack.top.jump = none)
    (hn : r.current? = some n) (h : eng.Replies ⟨r, v⟩ n raw)
    (hout : n.Yields eng.evaluator r.stack.top.data raw out) (left : Nat) :
    Turn.Leaves r n left out (eng.turn token ⟨⟨r, v⟩, left + 1⟩) := by
  obtain ⟨m, hm⟩ := eng.dispatch_run ⟨r, v⟩ n
  have hstep := dispatch_of_replies h
  rw [Run.mapOutput_of_yields (r := r) hout] at hstep
  rcases hd : eng.dispatch ⟨r, v⟩ n with ⟨step, r', v'⟩
  rw [hd] at hm hstep
  dsimp only at hm hstep
  subst hm hstep
  rw [eng.turn_node (s := ⟨r, v⟩) hc hn, runNode, hd]
  cases out with
  | error e => exact .failed
  | ok output =>
    have ha := Frame.advance_record_next hj n.name output
    simp only [Except.mapError, Except.map, Run.pass, ha]
    exact .recorded

/-- The end of a case is recorded at the switch, unless its own mappings fail or its jump leads
nowhere. -/
theorem turn_of_case {r : Run} {v : σ} {parent f : Frame} {rest : List Frame}
    {goto : Option String} {result : Option Json} (hc : eng.isCancelled token v = false)
    (hend : r.current? = none) (hb : r.stack.below = parent :: rest) (hj : parent.jump = none)
    (hn : parent.current? = some n) (hclose : r.close eng.evaluator = .ok (goto, result))
    (hf : parent.follow n.name (r.stack.top.result result) goto = .ok f) (left : Nat) :
    eng.turn token ⟨⟨r, v⟩, left⟩ = .more ⟨⟨{ r with stack := ⟨f, rest⟩ }, v⟩, left⟩ := by
  rw [eng.turn_case (s := ⟨r, v⟩) hc hend hb, Run.closeCase_follow hj hn, hclose]
  simp only [hf]

/-- Output mappings are applied wherever a node itself gets its raw result. In every run, a turn
that goes on does what `Proceeds` says, and a turn that ends the call records nothing. A reply is
recorded with what the mapping of its node makes of it, or ends the run with an error of that node;
an answer that is given later is treated alike, with the new input in view. The end of a case is
recorded at its switch without the mapping of the switch. What is recorded stands under the name of
the node and as the latest output, and all else in the data stays. -/
theorem outputs_mapped (eng : Engine σ) (w : σ) {before after : List (Action σ)} {act : Action σ}
    {id : String} {p : Pipe} (hbegins : act.Begins (eng.play (.init w) before) id p) :
    let s := eng.play (.init w) (before ++ act :: after)
    (∀ run, s.HasRun run → run.id = id → ∃ log, eng.Reaches p run log) ∧
    (∀ run log, eng.Reaches p run log → ∀ token v left,
      (∀ l', eng.turn token ⟨⟨run, v⟩, left⟩ = .more l' →
        eng.Proceeds ⟨run, v⟩ l'.scene.run.stack) ∧
      (∀ result t, eng.turn token ⟨⟨run, v⟩, left⟩ = .done result t →
        t.run.stack = run.stack) ∧
      (eng.isCancelled token v = false →
        (∀ n raw out, run.current? = some n → eng.Replies ⟨run, v⟩ n raw →
          n.Yields eng.evaluator run.stack.top.data raw out →
          Turn.Leaves run n left out (eng.turn token ⟨⟨run, v⟩, left + 1⟩)) ∧
        ∀ parent rest n goto result f, run.current? = none →
          run.stack.below = parent :: rest → parent.current? = some n →
          run.close eng.evaluator = .ok (goto, result) →
          parent.follow n.name (run.stack.top.result result) goto = .ok f →
          eng.turn token ⟨⟨run, v⟩, left⟩ =
            .more ⟨⟨{ run with stack := ⟨f, rest⟩ }, v⟩, left⟩)) ∧
    (∀ run log, eng.Reaches p run log → ∀ x, run.paused = some x →
      ∃ n autofill, run.current? = some n ∧ n.kind = .userInput x.ui autofill ∧
        x.ui.isInteractive = false ∧
        ∀ answers f out,
          run.stack.top.bind eng.evaluator (run.stack.top.input ++ answers) = .ok f →
          n.Yields eng.evaluator f.data (Run.answerValue answers) out →
          run.answer eng.evaluator answers =
            (out.mapError (run.nodeError n)).map fun output =>
              { run with stack := ⟨f.next n.name output, run.stack.below⟩, paused := none }) ∧
    ∀ (f g : Frame) (node : String) (output : Json) (goto : Option String),
      f.follow node output goto = .ok g →
        Keyed.get? g.data node = some output ∧ Keyed.get? g.data "output" = some output ∧
        ∀ key, key ≠ node → key ≠ "output" → Keyed.get? g.data key = Keyed.get? f.data key := by
  intro s
  refine ⟨fun run hrun hid => eng.reaches_of_begins w hbegins hrun hid,
    fun run log hrun token v left => ?_, fun run log hrun x hx => ?_,
    fun f g node output goto hg => ?_⟩
  · have hplace := hrun.atRest.stack
    refine ⟨fun l' ht => proceeds_of_more hplace ht, fun result t ht => (stack_of_done ht).1,
      fun hc => ⟨fun n raw out hn hreply hout => ?_, ?_⟩⟩
    · exact turn_of_replies hc hplace.innermost.jump hn hreply hout left
    · intro parent rest n goto result f hend hb hn hclose hf
      have hparent : parent ∈ run.stack.frames := by simp [Stack.frames, hb]
      exact turn_of_case hc hend hb (hplace.frames parent hparent).jump hn hclose hf left
  · obtain ⟨hplace, hpaused⟩ := hrun.atRest
    have hdescribes := hpaused x hx
    obtain ⟨n, autofill, hn, hkind, -, -⟩ := hdescribes.node
    exact ⟨n, autofill, hn, hkind, hdescribes.ui.2, fun answers f out hb hout =>
      Run.answer_of_yields hplace.innermost.jump hn hb hout⟩
  · obtain ⟨i, rfl⟩ := Frame.follow_eq hg
    rw [Frame.goOn_eq]
    exact ⟨f.get?_record_self .., f.get?_record_output .., fun key hnode hlatest =>
      Frame.get?_record_of_ne hnode hlatest⟩

end Engine

def mappingCase : Definition :=
  ⟨none, none,
    [{ plainNode "say" with
        process := some ⟨"make", .str "v"⟩, output := some (.obj [("said", .str "aloud")]) }],
    none, none, none, none, none⟩

def mappingDefinition : Definition :=
  ⟨none, some "main",
    [{ plainNode "route" with
        cases := some [("default", mappingCase)], output := some (.obj [("wrapped", .str "up")]) }],
    none, none, none, none, none⟩

def Node.process? (n : Node Pipe) : Option (String × Json) :=
  match n.kind with
  | .process name written => some (name, written)
  | _ => none

def mappingSystem : System Nat :=
  countingEngine.play (.init 0) [.start "r" mappingDefinition.built, .exec 0 [], .turn 0]

theorem mapped_mappingSystem :
    ∃ run n, mappingSystem.HasRun run ∧ run.current? = some n ∧ n.name = "say" ∧
      countingEngine.Replies ⟨run, 0⟩ n (.str "v") ∧
      Turn.Leaves run n 9 (.ok (.obj [("said", .str "aloud")]))
        (countingEngine.turn none ⟨⟨run, 0⟩, 10⟩) := by
  have hbegins : Action.Begins (System.init 0) (.start "r" mappingDefinition.built) "r"
      mappingDefinition.built := .start (by simp [System.init])
  have hwork : ((mappingSystem.hands 0).bind Hand.atWork?).map (·.id) = some "r" := by
    decide +kernel
  have hnode : (((mappingSystem.hands 0).bind Hand.atWork?).bind Run.current?).map (fun n =>
      (n.name, n.output, n.process?)) =
      some ("say", some (.obj [("said", .str "aloud")]), some ("make", .str "v")) := by
    decide +kernel
  obtain ⟨run, hatWork, hid⟩ := Option.map_eq_some_iff.mp hwork
  rw [hatWork, Option.bind_some] at hnode
  obtain ⟨n, hn, hsay⟩ := Option.map_eq_some_iff.mp hnode
  simp only [Prod.mk.injEq] at hsay
  obtain ⟨hname, hspec, hprocess⟩ := hsay
  have hkind : n.kind = .process "make" (.str "v") := by
    unfold Node.process? at hprocess
    split at hprocess
    next hk =>
      cases hprocess
      exact hk
    · cases hprocess
  have hrun := System.hasRun_of_atWork hatWork
  obtain ⟨hreaches, hrecords, -⟩ := @Engine.outputs_mapped _ countingEngine 0 []
    [.exec 0 [], .turn 0] _ _ _ hbegins
  obtain ⟨log, hlog⟩ := hreaches run hrun hid
  obtain ⟨-, -, hrecords⟩ := hrecords run log hlog none 0 9
  obtain ⟨hreplied, -⟩ := hrecords rfl
  have hreply : countingEngine.Replies ⟨run, 0⟩ n (.str "v") := .process hkind rfl rfl
  exact ⟨run, n, hrun, hn, hname, hreply, hreplied n _ _ hn hreply (.mapped hspec)⟩

/-- The switch is recorded with the result of its case, not with what its mapping makes of it. -/
theorem unmapped_mappingSystem :
    Pipe.build "" mappingDefinition = .ok mappingDefinition.built ∧
      ∃ run f n, (countingEngine.step mappingSystem (.turn 0)).HasRun run ∧
        run.current? = none ∧ run.stack.below = [f] ∧ f.current? = some n ∧
        n.Yields countingEngine.evaluator f.data (run.stack.top.result none)
          (.ok (.obj [("wrapped", .str "up")])) ∧
        let after := (countingEngine.turn none ⟨⟨run, 0⟩, 9⟩).scene.run.stack.top
        Keyed.get? after.data n.name = some (run.stack.top.result none) ∧
          Keyed.get? after.data n.name ≠ some (.obj [("wrapped", .str "up")]) := by
  have hbuilt := Definition.build_built (d := mappingDefinition) (by decide +kernel)
  have hwork : (((countingEngine.step mappingSystem (.turn 0)).hands 0).bind Hand.atWork?).map
      (fun run => (run.current?.isNone,
        run.stack.below.map fun f => f.current?.map fun n => (n.name, n.output))) =
      some (true, [some ("route", some (.obj [("wrapped", .str "up")]))]) := by decide +kernel
  have hrecorded : (((countingEngine.step mappingSystem (.turn 0)).hands 0).bind Hand.atWork?).map
      (fun run => (run.stack.top.result none,
        Keyed.get? (countingEngine.turn none ⟨⟨run, 0⟩, 9⟩).scene.run.stack.top.data "route")) =
      some (.obj [("said", .str "aloud")], some (.obj [("said", .str "aloud")])) := by
    decide +kernel
  obtain ⟨run, hatWork, hshape⟩ := Option.map_eq_some_iff.mp hwork
  rw [hatWork] at hrecorded
  simp only [Option.map_some, Option.some.injEq, Prod.mk.injEq] at hshape hrecorded
  obtain ⟨hend, hbelow⟩ := hshape
  obtain ⟨hresult, hafter⟩ := hrecorded
  obtain ⟨f, hf, hnode⟩ := List.map_eq_singleton_iff.mp hbelow
  obtain ⟨n, hn, hroute⟩ := Option.map_eq_some_iff.mp hnode
  obtain ⟨hname, hspec⟩ := Prod.ext_iff.mp hroute
  dsimp only at hname hspec
  refine ⟨hbuilt, run, f, n, System.hasRun_of_atWork hatWork, Option.isNone_iff_eq_none.mp hend,
    hf, hn, .mapped hspec, ?_⟩
  dsimp only
  rw [hname, hresult, hafter]
  exact ⟨rfl, by simp⟩

end Pipework
