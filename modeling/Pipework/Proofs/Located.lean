import Pipework.Proofs.WellFormed

/-!
# Errors name the place that failed

The errors of a call are made at many places: by the node that runs, by the mappings and the jump of
a pipe that ends, by the loop itself. Whichever it is, the pipe that the error names is the pipe of
a frame of the run, and the node that it names stands at the place that it gives.
-/

namespace Pipework

variable {σ : Type}

/-- What the errors of a call say is so at the run that the call has ended with. -/
inductive RunError.Points (ev : Evaluator) (limit : Nat) (r : Run) : RunError → Prop
  | node {n : Node Pipe} (hn : r.current? = some n)
      (hplace : r.stack.top.pipe.nodes[n.index]? = some n) (x : NodeError) :
      Points ev limit r (.node r.stack.top.pipe.id n.index n.name r.id x)
  | mapping {f : Frame} (hf : f ∈ r.stack.frames) (x : NodeError) :
      Points ev limit r (.mapping f.pipe.id r.id x)
  | noCase {n : Node Pipe} {cases : List (Case Pipe)} (hn : r.current? = some n)
      (hk : n.kind = .switch cases)
      (hfalse : ∀ c ∈ cases, c.expression ≠ defaultCase ∧
        ev.test c.expression r.stack.top.dataValue = .ok false) :
      Points ev limit r (.switchCaseNotFound r.stack.top.pipe.id n.name r.id)
  | astray {f : Frame} {target : String} (hf : f ∈ r.stack.frames)
      (hnone : ∀ n ∈ f.pipe.nodes, n.name ≠ target) :
      Points ev limit r (.gotoTargetNotFound f.pipe.id target r.id)
  | emptyStream {n : Node Pipe} (hn : r.current? = some n)
      (hplace : r.stack.top.pipe.nodes[n.index]? = some n) (raw : String) :
      Points ev limit r (.emptyStream r.stack.top.pipe.id n.index n.name r.id raw)
  | stepLimit : Points ev limit r (.stepLimitExceeded r.id limit)
  | cancelled : Points ev limit r (.cancelled r.id)

theorem Pipe.ne_of_indexOf? {p : Pipe} {target : String} (h : p.indexOf? target = none) :
    ∀ n ∈ p.nodes, n.name ≠ target := by
  intro n hn
  have hfalse := List.findIdx?_eq_none_iff.mp h n hn
  simpa using hfalse

theorem Stack.root_mem_frames (s : Stack) : s.root ∈ s.frames := by
  obtain ⟨top, below⟩ := s
  rw [root, frames]
  cases hb : below.getLast? with
  | none => exact List.mem_cons_self
  | some f => exact List.mem_cons_of_mem _ (List.mem_of_getLast? hb)

theorem Stack.InPlace.orderly {p : Pipe} {s : Stack} (h : s.InPlace p) (hb : p.IsBuilt) :
    ∀ f ∈ s.frames, f.pipe.Orderly := by
  intro f hf
  obtain ⟨fresh, d, hb⟩ := hb
  obtain ⟨l, path, hpath, hl⟩ := (h.inner f hf).descent hb
  obtain ⟨header, hpipe, -⟩ := hpath.built hb
  exact hl ▸ Pipe.orderly_of_pipeOf hpipe

namespace Run

variable {ev : Evaluator} {limit : Nat} {r : Run} {e : RunError}

theorem place_of_current (ho : r.stack.top.pipe.Orderly) {n : Node Pipe}
    (hn : r.current? = some n) : r.stack.top.pipe.nodes[n.index]? = some n := by
  rw [ho.index _ n hn]
  exact hn

theorem points_memory (h : e.Points ev limit r) (m : PromptMemory) :
    e.Points ev limit { r with memory := m } := by
  cases h with
  | node hn hplace x => exact .node (r := { r with memory := m }) hn hplace x
  | mapping hf x => exact .mapping (r := { r with memory := m }) hf x
  | noCase hn hk hfalse => exact .noCase (r := { r with memory := m }) hn hk hfalse
  | astray hf hnone => exact .astray (r := { r with memory := m }) hf hnone
  | emptyStream hn hplace raw => exact .emptyStream (r := { r with memory := m }) hn hplace raw
  | stepLimit => exact .stepLimit
  | cancelled => exact .cancelled

theorem points_of_fails (ho : r.stack.top.pipe.Orderly) {n : Node Pipe} (hn : r.current? = some n)
    (he : Engine.Fails ev r n e) : e.Points ev limit r := by
  cases he with
  | node x => exact .node hn (place_of_current ho hn) x
  | noCase hk hnone => exact .noCase hn hk (Engine.untaken_of_selectCase hnone).2
  | emptyStream raw => exact .emptyStream hn (place_of_current ho hn) raw

theorem points_of_restart {input : List Json} (h : r.restart ev input = .error e) :
    e.Points ev limit r := by
  obtain ⟨x, rfl⟩ := restart_error h
  exact .mapping r.stack.root_mem_frames x

theorem points_of_pass {node : String} {output : Json} (h : r.pass node output = .error e) :
    e.Points ev limit r := by
  obtain ⟨target, hnone, rfl⟩ := pass_error h
  exact .astray List.mem_cons_self (Pipe.ne_of_indexOf? hnone)

theorem points_of_closeCase {parent : Frame} {rest : List Frame}
    (hb : r.stack.below = parent :: rest) (h : r.closeCase ev parent rest = .error e) :
    e.Points ev limit r := by
  obtain ⟨x, rfl⟩ | ⟨target, hnone, rfl⟩ := closeCase_error h
  · exact .mapping List.mem_cons_self x
  · refine .astray ?_ (Pipe.ne_of_indexOf? hnone)
    rw [Stack.frames, hb]
    exact List.mem_cons_of_mem _ List.mem_cons_self

theorem points_of_closeRoot (h : r.closeRoot ev = .error e) : e.Points ev limit r := by
  obtain ⟨x, rfl⟩ | ⟨target, hnone, rfl⟩ := closeRoot_error h
  · exact .mapping List.mem_cons_self x
  · exact .astray List.mem_cons_self (Pipe.ne_of_indexOf? hnone)

theorem points_of_answer (ho : r.stack.top.pipe.Orderly) {n : Node Pipe}
    (hn : r.current? = some n) {answers : List Json} (h : r.answer ev answers = .error e) :
    e.Points ev limit r := by
  obtain ⟨x, rfl⟩ | ⟨x, rfl⟩ | ⟨target, hnone, rfl⟩ := answer_error hn h
  · exact .mapping List.mem_cons_self x
  · exact .node hn (place_of_current ho hn) x
  · exact .astray List.mem_cons_self (Pipe.ne_of_indexOf? hnone)

end Run

namespace Engine

variable {eng : Engine σ} {token : Option String} {p : Pipe} {e : RunError}

theorem points_of_turn {l : Loop σ} {t : Scene σ} (ho : l.scene.run.stack.top.pipe.Orderly)
    (h : eng.turn token l = .done (.error e) t) :
    e.Points eng.evaluator eng.settings.maxSteps t.run := by
  cases eng.ends_of_turn h with
  | cancelled => exact .cancelled
  | exhausted => exact .stepLimit
  | failed _ hn _ hd =>
    obtain ⟨m, hm⟩ := eng.dispatch_run l.scene _
    rw [hd] at hm
    rw [show t.run = _ from hm]
    exact Run.points_memory (Run.points_of_fails ho hn (fails_of_dispatch hd)) m
  | astray _ _ _ _ hr => exact Run.points_of_pass hr
  | caseFailed _ _ hb hr => exact Run.points_of_closeCase hb hr
  | rootFailed _ _ _ hr => exact Run.points_of_closeRoot hr

theorem points_of_runLoop (hb : p.IsBuilt) (l : Loop σ)
    (hp : l.scene.run.stack.InPlace p) (he : (eng.runLoop token l).1 = .error e) :
    e.Points eng.evaluator eng.settings.maxSteps (eng.runLoop token l).2.run := by
  induction l using eng.loop_induction token with
  | done l result t ht =>
    rw [eng.runLoop_of_done ht] at he ⊢
    obtain rfl : result = .error e := he
    exact points_of_turn (hp.orderly hb _ List.mem_cons_self) ht
  | more l l' ht ih =>
    rw [eng.runLoop_of_more ht] at he ⊢
    exact ih (inPlace_of_turn hp ht) he

theorem points_of_driveFrom (hb : p.IsBuilt) {a : Attempt}
    {ready : Except RunError Run}
    (hready : ∀ e, ready = .error e → e.Points eng.evaluator eng.settings.maxSteps a.run)
    (hplace : ∀ r, ready = .ok r → r.stack.InPlace p) {w : σ}
    (he : (eng.driveFrom a ready w).1 = .error e) :
    e.Points eng.evaluator eng.settings.maxSteps (eng.driveFrom a ready w).2.run := by
  cases ready with
  | error x =>
    obtain rfl : x = e := Except.error.inj he
    exact hready x rfl
  | ok r => exact points_of_runLoop hb ⟨⟨r, w⟩, eng.settings.maxSteps⟩ (hplace r rfl) he

theorem upkeep_points (eng : Engine σ) :
    eng.Upkeep (fun r => ∃ q, r.AtRest q ∧ q.IsBuilt) (fun r => ∃ q, r.stack.InPlace q ∧ q.IsBuilt)
      (fun result r => (∃ q, Concluded q result r ∧ q.IsBuilt) ∧
        ∀ e, result = .error e → e.Points eng.evaluator eng.settings.maxSteps r) := by
  have hk := eng.upkeep_positions fun _ q => q.IsBuilt
  refine ⟨hk.global, hk.sid, hk.restart, fun hr hfails => ⟨hk.unready hr hfails, ?_⟩, hk.answer,
    fun hr hp hfails => ⟨hk.unanswered hr hp hfails, ?_⟩, hk.more,
    fun hr ht => ⟨hk.done hr ht, ?_⟩, fun hpost => hk.suspended hpost.1⟩
  · rintro _ ⟨⟩
    exact Run.points_of_restart hfails
  · rintro _ ⟨⟩
    obtain ⟨q, hrest, hb⟩ := hr
    obtain ⟨x, hx⟩ := Option.isSome_iff_exists.mp hp
    obtain ⟨n, -, hn, -⟩ := (hrest.paused x hx).node
    exact Run.points_of_answer (hrest.stack.orderly hb _ List.mem_cons_self) hn hfails
  · rintro e rfl
    obtain ⟨q, hplace, hb⟩ := hr
    exact points_of_turn (hplace.orderly hb _ List.mem_cons_self) ht

/-- Whatever clients do with runs of pipes that have been built, a call that fails says where: the
error names the run, a pipe that the run has a frame of, and the node that was run or answered, at
its place. So it is for calls whose steps other clients come between, and for calls at one go. -/
theorem errors_located (eng : Engine σ) (w : σ) {acts : List (Action σ)} (hacts : Built acts) :
    let s := eng.play (.init w) acts
    (∀ h a e run, s.hands h = some ⟨a, .ended (.error e) run⟩ →
      run.id = a.run.id ∧ e.Points eng.evaluator eng.settings.maxSteps run) ∧
    ∀ h a, s.hands h = some ⟨a, .idle⟩ → ∀ (values : List Json) (store : ParkedRuns) (v : σ) e,
      ((eng.exec a values store v).1 = .error e →
        let r := (eng.driveFrom a (a.run.restart eng.evaluator values) v).2.run
        r.id = a.run.id ∧ e.Points eng.evaluator eng.settings.maxSteps r) ∧
      (a.lease.isSome → (eng.resume a values store v).1 = .error e →
        let r := (eng.driveFrom a (a.run.answer eng.evaluator values) v).2.run
        r.id = a.run.id ∧ e.Points eng.evaluator eng.settings.maxSteps r) := by
  intro s
  have hs : s.Sound := System.sound_play eng w acts
  have hu := eng.upkeep_points.built w hacts fun id p hb => ⟨p, Run.atRest_start id p, hb⟩
  refine ⟨fun h a e run hx => ?_, fun h a hx values store v e => ⟨fun he => ?_,
    fun hlease he => ?_⟩⟩
  · obtain ⟨-, -, hpoints⟩ := hu.hands hx
    exact ⟨(hs.live hx (by simp)).1, hpoints e rfl⟩
  · obtain ⟨⟨q, hrest, hb⟩, -⟩ := hu.hands hx
    refine ⟨(eng.sameRun_driveFrom a _ (fun _ => .of_restart) v).id, ?_⟩
    exact points_of_driveFrom hb (fun _ => Run.points_of_restart)
      (fun _ => Run.inPlace_restart hrest.stack) he
  · obtain ⟨⟨q, hrest, hb⟩, -⟩ := hu.hands hx
    obtain ⟨x, hpaused⟩ := Option.isSome_iff_exists.mp (hs.live hx (by simp) hlease)
    obtain ⟨n, -, hn, -⟩ := (hrest.paused x hpaused).node
    simp only [resume, show a.run.paused = _ from hpaused] at he
    refine ⟨(eng.sameRun_driveFrom a _ (fun _ => .of_answer) v).id, ?_⟩
    exact points_of_driveFrom hb
      (fun _ => Run.points_of_answer (hrest.stack.orderly hb _ List.mem_cons_self) hn)
      (fun _ => Run.inPlace_answer hrest.stack) he

end Engine

def strayDefinition : Definition :=
  ⟨none, some "main", [{ plainNode "pick" with cases := some [("true", routingCase)] }], none, none,
    none, none, none⟩

def strayScript : List (Action Nat) :=
  [.start "r" strayDefinition.built, .exec 0 [], .turn 0, .turn 0]

def Hand.failure? (x : Hand) : Option (RunError × Run) :=
  match x.stage with
  | .ended (.error e) run => some (e, run)
  | _ => none

theorem Hand.failure?_eq_some {x : Hand} {e : RunError} {run : Run}
    (h : x.failure? = some (e, run)) : x = ⟨x.attempt, .ended (.error e) run⟩ := by
  obtain ⟨a, stage⟩ := x
  unfold failure? at h
  split at h
  next hstage =>
    cases h
    rw [show stage = _ from hstage]
  · cases h

theorem located_strayScript :
    Engine.Built strayScript ∧
      ∃ h a run, (countingEngine.play (.init 0) strayScript).hands h =
          some ⟨a, .ended (.error (.gotoTargetNotFound "main" "first" "r")) run⟩ ∧
        run.stack.frames.map (·.pipe.id) = ["main.pick#true", "main"] ∧
        RunError.Points countingEngine.evaluator 10 run
          (.gotoTargetNotFound "main" "first" "r") := by
  have hb := Definition.build_built (d := strayDefinition) (by decide +kernel)
  have hacts : Engine.Built strayScript := by
    intro act hmem q hq
    simp only [strayScript, List.mem_cons, List.not_mem_nil, or_false] at hmem
    rcases hmem with rfl | rfl | rfl | rfl <;> cases hq
    exact ⟨"", _, hb⟩
  have hfailure : (((countingEngine.play (.init 0) strayScript).hands 0).bind Hand.failure?).map
      (fun x => (x.1, x.2.stack.frames.map (·.pipe.id))) =
      some (.gotoTargetNotFound "main" "first" "r", ["main.pick#true", "main"]) := by
    decide +kernel
  obtain ⟨⟨e, run⟩, hbind, hshape⟩ := Option.map_eq_some_iff.mp hfailure
  obtain ⟨x, hx, he⟩ := Option.bind_eq_some_iff.mp hbind
  simp only [Prod.mk.injEq] at hshape
  obtain ⟨rfl, hframes⟩ := hshape
  rw [Hand.failure?_eq_some he] at hx
  obtain ⟨hended, -⟩ := countingEngine.errors_located 0 hacts
  exact ⟨hacts, 0, x.attempt, run, hx, hframes, (hended 0 _ _ _ hx).2⟩

end Pipework
