import Pipework.Proofs.Loop
import Pipework.Proofs.Trace

/-!
# The loop runs pipes as a recursion over pipes would

`Engine.walk` runs the nodes of one pipe, and where a switch selects a case it runs the pipe of the
case by calling itself. It knows one frame at a time and no pending jumps, and says by itself what a
case starts with, what it comes to and where that is kept. `Engine.evaluate` runs a whole pipe this
way. Main statement: starting a run over with its stack of frames comes to the same result, the same
calls and the same memory.
-/

namespace Pipework

variable {σ : Type}

namespace Frame

/-- A pipe at its first node, showing an input to its templates. The pipe may map what is shown. -/
def opening (ev : Evaluator) (pipe : Pipe) (data : Keyed Json) (input : List Json)
    (inherited : Option Json) (shown : Json) : Except NodeError Frame :=
  let data := Keyed.put data "input" shown
  match pipe.input with
  | none => .ok ⟨pipe, 0, data, input, none, inherited⟩
  | some spec => match ev.resolve (.obj data) spec with
    | .error e => .error e
    | .ok mapped => .ok ⟨pipe, 0, Keyed.put data "input" mapped, input, none, inherited⟩

/-- A case starts from the data of its switch and from the input that is visible there. -/
def inside (ev : Evaluator) (switch : Frame) (case : Pipe) : Except NodeError Frame :=
  let visible := (Keyed.get? switch.data "input").getD .null
  opening ev case switch.data switch.input (some visible) visible

/-- Where a pipe at its end wants to go on, and what its mapping makes of the data. -/
def ends (ev : Evaluator) (f : Frame) : Except NodeError (Option String × Option Json) :=
  match ev.resolveGoto f.pipe.goto (.obj f.data) with
  | .error e => .error e
  | .ok goto => match f.pipe.output with
    | none => .ok (goto, none)
    | some spec => match ev.resolve (.obj f.data) spec with
      | .error e => .error e
      | .ok mapped => .ok (goto, some mapped)

/-- The frame at node `i`, with an output under the name of the node that has ended and as the
latest one. -/
def goOn (f : Frame) (i : Nat) (node : String) (output : Json) : Frame :=
  { f with cursor := i, data := Keyed.put (Keyed.put f.data node output) "output" output }

def next (f : Frame) (node : String) (output : Json) : Frame := f.goOn (f.cursor + 1) node output

def follow (f : Frame) (node : String) (output : Json) : Option String → Except String Frame
  | none => .ok (f.next node output)
  | some target => match f.pipe.indexOf? target with
    | some i => .ok (f.goOn i node output)
    | none => .error target

theorem bind_root (ev : Evaluator) (pipe : Pipe) (global : Keyed Json) (sid : String)
    (input : List Json) :
    (root pipe global sid).bind ev input = opening ev pipe
      [("global", .obj global), ("sid", .str sid), ("input", .arr []), ("output", .null)]
      input none (.arr input) := rfl

theorem child_eq_inside (ev : Evaluator) (case : Pipe) (switch : Frame) :
    Frame.child ev case switch = switch.inside ev case := rfl

theorem goOn_eq (f : Frame) (i : Nat) (node : String) (output : Json) :
    f.goOn i node output = { f.record node output with cursor := i } := rfl

theorem advance_record {f : Frame} (hf : f.jump = none) (node : String) (output : Json)
    (goto : Option String) :
    (({ f with jump := goto } : Frame).record node output).advance = f.follow node output goto := by
  obtain ⟨pipe, cursor, data, input, jump, inherited⟩ := f
  subst hf
  cases goto with
  | none => rfl
  | some target =>
    cases hi : pipe.indexOf? target with
    | none => simp only [advance, record, follow, hi]
    | some i => simp only [advance, record, follow, goOn, hi]

theorem advance_record_next {f : Frame} (hf : f.jump = none) (node : String) (output : Json) :
    (f.record node output).advance = .ok (f.next node output) := by
  simp only [advance, record, next, goOn, hf]

theorem follow_eq {f g : Frame} {node : String} {output : Json} {goto : Option String}
    (h : f.follow node output goto = .ok g) : ∃ i, g = f.goOn i node output := by
  unfold follow at h
  split at h
  · cases h
    exact ⟨_, rfl⟩
  · split at h
    · cases h
      exact ⟨_, rfl⟩
    · cases h

end Frame

theorem Run.close_eq_ends (ev : Evaluator) (r : Run) :
    r.close ev = match r.stack.top.ends ev with
      | .error e => .error (.mapping r.stack.top.pipe.id r.id e)
      | .ok ended => .ok ended := by
  unfold close Frame.ends Frame.dataValue
  dsimp only
  cases ev.resolveGoto r.stack.top.pipe.goto (.obj r.stack.top.data) with
  | error e => rfl
  | ok goto =>
    dsimp only
    cases r.stack.top.pipe.output with
    | none => rfl
    | some spec =>
      dsimp only
      cases ev.resolve (.obj r.stack.top.data) spec <;> rfl

theorem Run.closeCase_follow {ev : Evaluator} {r : Run} {parent : Frame} {n : Node Pipe}
    (hj : parent.jump = none) (hn : parent.current? = some n) (rest : List Frame) :
    r.closeCase ev parent rest = match r.close ev with
      | .error e => .error e
      | .ok (goto, mapped) => match parent.follow n.name (r.stack.top.result mapped) goto with
        | .error target => .error (.gotoTargetNotFound parent.pipe.id target r.id)
        | .ok f => .ok { r with stack := ⟨f, rest⟩ } := by
  unfold closeCase
  cases r.close ev with
  | error e => rfl
  | ok c =>
    obtain ⟨goto, mapped⟩ := c
    have ha := Frame.advance_record hj n.name (r.stack.top.result mapped) goto
    simp only [hn, hj, Option.or_none, pass, caseResult_eq, ha]
    cases parent.follow n.name (r.stack.top.result mapped) goto <;> rfl

def Scene.alone (s : Scene σ) (f : Frame) : Scene σ :=
  { s with run := { s.run with stack := .single f } }

/-- How the nodes of a pipe come to an end: they are through, with so many steps left, or the whole
call is over. -/
inductive Passage (σ : Type) (limit : Nat)
  | through (s : Scene σ) (left : Nat) (le : left ≤ limit)
  | stopped (result : Except RunError Ending) (s : Scene σ)

def Passage.weaken {a b : Nat} (h : a ≤ b) : Passage σ a → Passage σ b
  | through s left le => .through s left (Nat.le_trans le h)
  | stopped result s => .stopped result s

structure Outcome (σ : Type) where
  result : Except RunError Ending
  memory : PromptMemory
  world : σ

def Outcome.of (r : Except RunError Ending × Scene σ) : Outcome σ :=
  ⟨r.1, r.2.run.memory, r.2.world⟩

namespace Engine

variable (eng : Engine σ)

/-- A switch enters the case that it selects. Any other node is run. -/
def stepAt (s : Scene σ) (n : Node Pipe) : Except RunError Step × Scene σ :=
  match n.kind with
  | .switch cases =>
    let switch := s.run.stack.top
    let fail : NodeError → RunError := .node switch.pipe.id n.index n.name s.run.id
    match selectCase eng.evaluator (.obj switch.data) none cases with
    | .error e => (.error (fail e), s)
    | .ok none => (.error (.switchCaseNotFound switch.pipe.id n.name s.run.id), s)
    | .ok (some c) => match switch.inside eng.evaluator c.pipe with
      | .error e => (.error (fail e), s)
      | .ok child => (.ok (.enter child), s)
  | _ => eng.dispatch s n

theorem stepAt_eq (s : Scene σ) (n : Node Pipe) : eng.stepAt s n = eng.dispatch s n := by
  unfold stepAt dispatch
  cases n.kind with
  | switch cases =>
    dsimp only [dispatchSwitch, Frame.dataValue]
    cases selectCase eng.evaluator (.obj s.run.stack.top.data) none cases with
    | error e => rfl
    | ok selected => cases selected with
      | none => rfl
      | some c =>
        dsimp only
        rw [Frame.child_eq_inside]
        cases s.run.stack.top.inside eng.evaluator c.pipe <;> rfl
  | process | ai | request | userInput => rfl

/-- Runs the nodes of the innermost pipe from its current node on. Entering a case runs the pipe of
the case to its end; then the switch node has ended, with the result of the case as its output. -/
def walk (left : Nat) (s : Scene σ) : Passage σ left :=
  match s.run.stack.top.current? with
  | none => .through s left (Nat.le_refl left)
  | some n => match left with
    | 0 => .stopped (.error (.stepLimitExceeded s.run.id eng.settings.maxSteps)) s
    | left + 1 => match eng.stepAt s n with
      | (.error e, s) => .stopped (.error e) s
      | (.ok (.suspend snapshot), s) => .stopped (.ok (.suspended snapshot)) s
      | (.ok (.advance output), s) =>
        (walk left (s.alone (s.run.stack.top.next n.name output))).weaken (Nat.le_succ left)
      | (.ok (.enter child), s) => match walk left (s.alone child) with
        | .stopped result s => .stopped result s
        | .through inner rest le =>
          let switch := s.run.stack.top
          let case := inner.run.stack.top
          match case.ends eng.evaluator with
          | .error e => .stopped (.error (.mapping case.pipe.id inner.run.id e)) inner
          | .ok (goto, mapped) => match switch.follow n.name (case.result mapped) goto with
            | .error target =>
              .stopped (.error (.gotoTargetNotFound switch.pipe.id target inner.run.id)) inner
            | .ok f => (walk rest (inner.alone f)).weaken (by omega)
termination_by left

theorem walk_lt {left rest : Nat} {s s' : Scene σ} {le : rest ≤ left}
    (h : eng.walk left s = .through s' rest le) (hs : s.run.stack.top.isFinished = false) :
    rest < left := by
  have hn : s.run.stack.top.current? ≠ none := by
    rw [Frame.isFinished_eq] at hs
    intro hn
    rw [hn] at hs
    cases hs
  have weaken {a b : Nat} {hab : a ≤ b} {p : Passage σ a} {le : rest ≤ b}
      (hp : p.weaken hab = .through s' rest le) : rest ≤ a := by
    cases p with
    | through _ _ le => cases hp; exact le
    | stopped => cases hp
  rw [walk] at h
  split at h
  · contradiction
  · split at h
    · cases h
    · split at h
      · cases h
      · cases h
      · exact Nat.lt_succ_of_le (weaken h)
      · split at h
        · cases h
        · dsimp only at h
          split at h
          · cases h
          · split at h
            · cases h
            · have := weaken h
              omega

def interpret (left : Nat) (s : Scene σ) : Outcome σ :=
  match _h : eng.walk left s with
  | .stopped result s' => .of (result, s')
  | .through s' rest _ =>
    let top := s'.run.stack.top
    match top.ends eng.evaluator with
    | .error e => .of (.error (.mapping top.pipe.id s'.run.id e), s')
    | .ok (none, mapped) => .of (.ok (.completed (mapped.getD (.obj top.data))), s')
    | .ok (some target, _) => match _hi : top.pipe.indexOf? target with
      | none => .of (.error (.gotoTargetNotFound top.pipe.id target s'.run.id), s')
      | some i => interpret rest (s'.alone { top with cursor := i })
termination_by 2 * left + s.run.stack.top.isFinished.toNat
decreasing_by
  have hf : (s'.alone { top with cursor := i }).run.stack.top.isFinished = false :=
    Frame.isFinished_of_jump _hi
  rw [hf]
  cases hs : s.run.stack.top.isFinished with
  | false =>
    have := eng.walk_lt _h hs
    simp only [Bool.toNat_false]
    omega
  | true =>
    simp only [Bool.toNat_false, Bool.toNat_true]
    omega

def evaluate (r : Run) (input : List Json) (w : σ) : Outcome σ :=
  let data : Keyed Json :=
    [("global", .obj r.global), ("sid", .str r.sid), ("input", .arr []), ("output", .null)]
  match Frame.opening eng.evaluator r.pipe data input none (.arr input) with
  | .error e => ⟨.error (.mapping r.pipe.id r.id e), r.memory, w⟩
  | .ok f => eng.interpret eng.settings.maxSteps ⟨{ r with stack := .single f, paused := none }, w⟩

end Engine

def Scene.onto (s : Scene σ) (below : List Frame) : Scene σ :=
  ⟨s.run.over below s.run.paused, s.world⟩

/-- What a passage says about the loop `r` that runs it over other frames: a call that is over is
over there too, and a pipe that is through has left the loop at its end, to go on from there. -/
def Passage.Tells (loop : Loop σ → Except RunError Ending × Scene σ) (below : List Frame)
    {limit : Nat} (r : Except RunError Ending × Scene σ) : Passage σ limit → Prop
  | stopped result s => Outcome.of r = .of (result, s)
  | through s left _ => r = loop ⟨s.onto below, left⟩ ∧
      s.run.stack.top.current? = none ∧ s.run.stack.top.jump = none

theorem Passage.tells_weaken {loop : Loop σ → Except RunError Ending × Scene σ}
    {below : List Frame} {a b : Nat} (hab : a ≤ b) {r : Except RunError Ending × Scene σ}
    {p : Passage σ a} (h : p.Tells loop below r) : (p.weaken hab).Tells loop below r := by
  cases p <;> exact h

namespace Engine

variable (eng : Engine σ) {token : Option String}

theorem dispatch_onto (s : Scene σ) (n : Node Pipe) (below : List Frame) :
    eng.dispatch (s.onto below) n = ((eng.dispatch s n).1, (eng.dispatch s n).2.onto below) := by
  obtain ⟨m, hm⟩ := eng.dispatch_run s n
  have hp : (eng.dispatch s n).2.run.paused = s.run.paused := by rw [hm]
  unfold Scene.onto
  rw [eng.dispatch_over, hp]

section

variable {s s' : Scene σ} {n : Node Pipe} (below : List Frame) (left : Nat)
  (hc : eng.isCancelled token s.world = false) (hn : s.run.stack.top.current? = some n)
include hc hn

theorem turn_error_onto {e : RunError} (hd : eng.dispatch s n = (.error e, s')) :
    eng.turn token ⟨s.onto below, left + 1⟩ = .done (.error e) (s'.onto below) := by
  rw [eng.turn_node (s := s.onto below) hc hn, runNode, dispatch_onto, hd]

theorem turn_suspend_onto {snapshot : Snapshot}
    (hd : eng.dispatch s n = (.ok (.suspend snapshot), s')) :
    eng.turn token ⟨s.onto below, left + 1⟩ = .done (.ok (.suspended snapshot))
      ⟨s'.run.over below (some snapshot), s'.world⟩ := by
  rw [eng.turn_node (s := s.onto below) hc hn, runNode, dispatch_onto, hd]
  rfl

theorem turn_advance_onto {output : Json} (hj : s.run.stack.top.jump = none)
    (hd : eng.dispatch s n = (.ok (.advance output), s')) :
    eng.turn token ⟨s.onto below, left + 1⟩ =
      .more ⟨(s'.alone (s'.run.stack.top.next n.name output)).onto below, left⟩ := by
  have hs := eng.dispatch_stack s n
  rw [hd] at hs
  have hj' : s'.run.stack.top.jump = none := by rw [hs, hj]
  have ha := Frame.advance_record_next hj' n.name output
  rw [eng.turn_node (s := s.onto below) hc hn, runNode, dispatch_onto, hd]
  simp only [Run.pass, Scene.onto, Run.over, ha]
  rfl

theorem turn_enter_onto {child : Frame} (hd : eng.dispatch s n = (.ok (.enter child), s')) :
    eng.turn token ⟨s.onto below, left + 1⟩ =
      .more ⟨(s'.alone child).onto (s'.run.stack.top :: below), left⟩ := by
  rw [eng.turn_node (s := s.onto below) hc hn, runNode, dispatch_onto, hd]
  rfl

end

theorem turn_case_onto {inner : Scene σ} {switch : Frame} {n : Node Pipe} (below : List Frame)
    (left : Nat) (hc : eng.isCancelled token inner.world = false)
    (hend : inner.run.stack.top.current? = none) (hj : switch.jump = none)
    (hn : switch.current? = some n) :
    eng.turn token ⟨inner.onto (switch :: below), left⟩ =
      let case := inner.run.stack.top
      match case.ends eng.evaluator with
      | .error e => .done (.error (.mapping case.pipe.id inner.run.id e))
          (inner.onto (switch :: below))
      | .ok (goto, mapped) => match switch.follow n.name (case.result mapped) goto with
        | .error target => .done (.error (.gotoTargetNotFound switch.pipe.id target inner.run.id))
            (inner.onto (switch :: below))
        | .ok f => .more ⟨(inner.alone f).onto below, left⟩ := by
  have hclose : (inner.onto (switch :: below)).run.close eng.evaluator =
      inner.run.close eng.evaluator := rfl
  rw [eng.turn_case (s := inner.onto (switch :: below)) hc hend rfl]
  rw [Run.closeCase_follow hj hn, hclose, Run.close_eq_ends]
  dsimp only
  cases inner.run.stack.top.ends eng.evaluator with
  | error e => rfl
  | ok r =>
    obtain ⟨goto, mapped⟩ := r
    simp only [Scene.onto, Run.over]
    cases switch.follow n.name (inner.run.stack.top.result mapped) goto <;> rfl

/-- The loop over any frames below does what the recursion says. -/
theorem walk_tells (never : ∀ w, eng.isCancelled token w = false) (left : Nat) (s : Scene σ)
    (below : List Frame) (hj : s.run.stack.top.jump = none) :
    (eng.walk left s).Tells (eng.runLoop token) below
      (eng.runLoop token ⟨s.onto below, left⟩) := by
  -- On the steps left: a case and what follows it have fewer of them, and the frames below are
  -- general, since entering a case pushes the frame of its switch.
  induction left using Nat.strongRecOn generalizing s below with
  | ind left ih =>
    rw [walk]
    cases hn : s.run.stack.top.current? with
    | none => exact ⟨rfl, hn, hj⟩
    | some n =>
      cases left with
      | zero =>
        rw [eng.runLoop_of_done (eng.turn_exhausted (s := s.onto below) (never _) hn)]
        rfl
      | succ left =>
        dsimp only
        rw [stepAt_eq]
        rcases hd : eng.dispatch s n with ⟨step, s₁⟩
        have hs : s₁.run.stack = s.run.stack := by rw [← eng.dispatch_stack s n, hd]
        have hj₁ : s₁.run.stack.top.jump = none := by rw [hs, hj]
        have hn₁ : s₁.run.stack.top.current? = some n := by rw [hs, hn]
        cases step with
        | error e =>
          rw [eng.runLoop_of_done (eng.turn_error_onto below left (never _) hn hd)]
          rfl
        | ok step => cases step with
          | suspend snapshot =>
            rw [eng.runLoop_of_done (eng.turn_suspend_onto below left (never _) hn hd)]
            rfl
          | advance output =>
            rw [eng.runLoop_of_more (eng.turn_advance_onto below left (never _) hn hj hd)]
            exact Passage.tells_weaken _ (ih left (Nat.lt_succ_self left) _ below hj₁)
          | enter child =>
            obtain ⟨_, _, -, -, hchild, -⟩ := enter_of_dispatch hd
            have hj' : child.jump = none := by
              obtain ⟨_, _, rfl⟩ := Frame.child_eq hchild
              rfl
            rw [eng.runLoop_of_more (eng.turn_enter_onto below left (never _) hn hd)]
            -- The case runs over the frame of its switch.
            have hw := ih left (Nat.lt_succ_self left) (s₁.alone child)
              (s₁.run.stack.top :: below) hj'
            dsimp only
            cases hp : eng.walk left (s₁.alone child) with
            | stopped result s' =>
              rw [hp] at hw
              exact hw
            | through inner rest le =>
              rw [hp] at hw
              -- The loop stands at the end of the case; its next turn reports to the switch.
              obtain ⟨hr, hend, -⟩ := hw
              rw [hr]
              have ht := eng.turn_case_onto below rest (never _) hend hj₁ hn₁
              dsimp only at ht ⊢
              cases hends : inner.run.stack.top.ends eng.evaluator with
              | error e =>
                rw [hends] at ht
                rw [eng.runLoop_of_done ht]
                rfl
              | ok r =>
                obtain ⟨goto, mapped⟩ := r
                rw [hends] at ht
                dsimp only at ht ⊢
                cases hf : s₁.run.stack.top.follow n.name
                    (inner.run.stack.top.result mapped) goto with
                | error target =>
                  rw [hf] at ht
                  rw [eng.runLoop_of_done ht]
                  rfl
                | ok f =>
                  rw [hf] at ht
                  rw [eng.runLoop_of_more ht]
                  have hjf : f.jump = none := by
                    obtain ⟨_, rfl⟩ := Frame.follow_eq hf
                    exact hj₁
                  exact Passage.tells_weaken _
                    (ih rest (Nat.lt_succ_of_le le) (inner.alone f) below hjf)

theorem turn_root_onto {s : Scene σ} (left : Nat) (hc : eng.isCancelled token s.world = false)
    (hend : s.run.stack.top.current? = none) :
    eng.turn token ⟨s.onto [], left⟩ =
      let top := s.run.stack.top
      match top.ends eng.evaluator with
      | .error e => .done (.error (.mapping top.pipe.id s.run.id e)) (s.onto [])
      | .ok (none, mapped) => .done (.ok (.completed (mapped.getD (.obj top.data)))) (s.onto [])
      | .ok (some target, _) => match top.pipe.indexOf? target with
        | none => .done (.error (.gotoTargetNotFound top.pipe.id target s.run.id)) (s.onto [])
        | some i => .more ⟨(s.alone { top with cursor := i }).onto [], left⟩ := by
  have hclose : (s.onto []).run.close eng.evaluator = s.run.close eng.evaluator := rfl
  rw [eng.turn_root (s := s.onto []) hc hend rfl]
  simp only [Run.closeRoot, hclose, Run.close_eq_ends]
  cases s.run.stack.top.ends eng.evaluator with
  | error e => rfl
  | ok r =>
    obtain ⟨goto, mapped⟩ := r
    cases goto with
    | none => rfl
    | some target =>
      simp only [Scene.onto, Run.over]
      cases s.run.stack.top.pipe.indexOf? target <;> rfl

theorem interpret_eq (never : ∀ w, eng.isCancelled token w = false) (left : Nat) (s : Scene σ)
    (hj : s.run.stack.top.jump = none) :
    eng.interpret left s = Outcome.of (eng.runLoop token ⟨s.onto [], left⟩) := by
  have hw := eng.walk_tells never left s [] hj
  fun_induction eng.interpret left s with
  | case1 left s result s' h =>
    rw [h] at hw
    exact hw.symm
  | case2 left s s' rest le h top e hends =>
    rw [h] at hw
    obtain ⟨hr, hend, -⟩ := hw
    have ht := eng.turn_root_onto rest (never _) hend
    dsimp only at ht
    rw [hends] at ht
    rw [hr, eng.runLoop_of_done ht]
    rfl
  | case3 left s s' rest le h top mapped hends =>
    rw [h] at hw
    obtain ⟨hr, hend, -⟩ := hw
    have ht := eng.turn_root_onto rest (never _) hend
    dsimp only at ht
    rw [hends] at ht
    rw [hr, eng.runLoop_of_done ht]
    rfl
  | case4 left s s' rest le h top target mapped hends hi =>
    rw [h] at hw
    obtain ⟨hr, hend, -⟩ := hw
    have ht := eng.turn_root_onto rest (never _) hend
    dsimp only at ht
    rw [hends] at ht
    dsimp only at ht
    rw [hi] at ht
    rw [hr, eng.runLoop_of_done ht]
    rfl
  | case5 left s s' rest le h top target mapped hends i hi ih =>
    rw [h] at hw
    obtain ⟨hr, hend, hj'⟩ := hw
    have ht := eng.turn_root_onto rest (never _) hend
    dsimp only at ht
    rw [hends] at ht
    dsimp only at ht
    rw [hi] at ht
    rw [hr, eng.runLoop_of_more ht]
    exact ih hj' (eng.walk_tells never rest _ [] hj')

theorem evaluate_eq (a : Attempt) (never : ∀ w, eng.isCancelled a.token w = false)
    (input : List Json) (w : σ) :
    eng.evaluate a.run input w =
      Outcome.of (eng.driveFrom a (a.run.restart eng.evaluator input) w) := by
  unfold evaluate Run.restart
  dsimp only
  rw [← Frame.bind_root]
  cases hb : (Frame.root a.run.pipe a.run.global a.run.sid).bind eng.evaluator input with
  | error e => rfl
  | ok f =>
    obtain ⟨_, rfl⟩ := Frame.bind_eq hb
    exact eng.interpret_eq never _ _ rfl

/-- Running a new attempt comes to what the recursion comes to: the same result, the same calls in
the same order, and the same prompts remembered, which a pause leaves parked. -/
theorem exec_eq_evaluate (run : Run) (token : Option String)
    (never : ∀ w, eng.isCancelled token w = false) (input : List Json) (parked : ParkedRuns)
    (w : σ) :
    let a : Attempt := ⟨run, none, token⟩
    let outcome := eng.traced.evaluate run input (w, [])
    (eng.exec a input parked w).1 = outcome.result ∧
      (eng.traced.exec a input parked (w, [])).2.2 = outcome.world ∧
      (eng.traced.driveFrom a (run.restart eng.evaluator input) (w, [])).2.run.memory =
        outcome.memory ∧
      ∀ snapshot, outcome.result = .ok (.suspended snapshot) →
        ∃ e, (eng.exec a input parked w).2.1.get? run.id = some e ∧
          e.run.paused = some snapshot ∧ e.run.memory = outcome.memory := by
  intro a outcome
  have ho : outcome =
      Outcome.of (eng.traced.driveFrom a (run.restart eng.evaluator input) (w, [])) :=
    eng.traced.evaluate_eq a (fun v => by rw [traced_isCancelled]; exact never v.1) input (w, [])
  rw [eng.exec_traced a input parked w [], ho]
  refine ⟨rfl, rfl, rfl, fun snapshot hs => ?_⟩
  have hid := eng.traced.sameRun_driveFrom a (run.restart eng.evaluator input)
    (fun r hr => .of_restart hr) (w, [])
  rcases hd : eng.traced.driveFrom a (run.restart eng.evaluator input) (w, []) with ⟨result, s⟩
  rw [hd] at hs hid
  obtain rfl : result = .ok (.suspended snapshot) := hs
  have hrun : run.id = s.run.id := hid.id.symm
  refine ⟨⟨s.run, none, eng.services.now s.world.1⟩, ?_, eng.traced.paused_of_driveFrom hd, rfl⟩
  have hx : eng.traced.exec a input parked (w, []) =
      eng.traced.conclude a parked (.ok (.suspended snapshot), s) :=
    congrArg (eng.traced.conclude a parked) hd
  rw [hx, hrun]
  exact ParkedRuns.get?_park_self ..

end Engine

def lookupEngine : Engine Nat :=
  { countingEngine with
    evaluator :=
      ⟨fun s data => match data with
        | .obj fields => .ok ((Keyed.get? fields s).getD (.str s))
        | _ => .ok (.str s), fun _ _ => .ok true⟩ }

def boundCase : Pipe :=
  ⟨"main:bound", "", [], none, none, some (.obj [("seen", .str "input")]), none, none, none,
    some "main"⟩

def latestCase : Pipe :=
  ⟨"main:latest", "", [⟨"look", "", 0, .process "look" (.str "here"), none, none⟩], none, none,
    none, none, none, none, some "main"⟩

def mappedCase : Pipe :=
  ⟨"main:mapped", "", [⟨"look", "", 0, .process "look" (.str "there"), none, none⟩], none,
    some "tell", none, some (.obj [("found", .str "look")]), none, none, some "main"⟩

def recordingPipe : Pipe :=
  ⟨"main", "",
    [⟨"bound", "", 0, .switch [⟨"true", boundCase⟩], none, none⟩,
      ⟨"latest", "", 1, .switch [⟨"true", latestCase⟩], none, none⟩,
      ⟨"mapped", "", 2, .switch [⟨"true", mappedCase⟩], none, none⟩,
      ⟨"skipped", "", 3, .process "skipped" .null, none, none⟩,
      ⟨"tell", "", 4, .process "tell"
        (.arr [.str "bound", .str "latest", .str "mapped", .str "output"]), none, none⟩],
    none, none, none, none, none, none, none⟩

theorem evaluate_recordingRun :
    (∀ w, lookupEngine.isCancelled none w = false) ∧
      let seen : Json := .obj [("seen", .arr [.int 1])]
      let found : Json := .obj [("found", .str "there")]
      (lookupEngine.traced.evaluate (.start "r" recordingPipe) [.int 1] (0, [])).world =
        (3, [.process "look" (.str "here") ⟨"main:latest", "r", "look", "", []⟩,
          .process "look" (.str "there") ⟨"main:mapped", "r", "look", "", []⟩,
          .process "tell" (.arr [seen, .str "here", found, found])
            ⟨"main", "r", "tell", "", []⟩]) := by
  have never : ∀ w, lookupEngine.isCancelled none w = false := fun _ => rfl
  obtain ⟨-, hworld, -⟩ :=
    lookupEngine.exec_eq_evaluate (.start "r" recordingPipe) none never [.int 1] .empty 0
  refine ⟨never, hworld.symm.trans ?_⟩
  decide +kernel

end Pipework
