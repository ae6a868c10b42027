import Pipework.Run.Attempt

/-!
# What the operations on a run leave as it was

Binding an input changes the input and the data of a frame. Passing a node replaces the innermost
frame, ending a case replaces the two innermost by one, and a jump within the first pipe moves its
cursor. None of them changes who the run is: its id, its session and its global data. What a case
hands to its switch is written out in `Frame.result`.
-/

namespace Pipework

namespace Frame

theorem isFinished_eq (f : Frame) : f.isFinished = f.current?.isNone := by
  rw [Bool.eq_iff_iff, Option.isNone_iff_eq_none]
  simp [isFinished, current?]

theorem isFinished_of_jump {f : Frame} {target : String} {i : Nat}
    (h : f.pipe.indexOf? target = some i) :
    ({ f with cursor := i } : Frame).isFinished = false := by
  have hi := Pipe.lt_of_indexOf? h
  simpa [isFinished] using hi

theorem bind_eq {ev : Evaluator} {f g : Frame} {input : List Json} (h : f.bind ev input = .ok g) :
    ∃ data, g = { f with input := input, data := data } := by
  unfold bind at h
  dsimp only at h
  split at h
  · cases h
    exact ⟨_, rfl⟩
  · split at h
    · cases h
    · cases h
      exact ⟨_, rfl⟩

theorem child_eq {ev : Evaluator} {pipe : Pipe} {parent child : Frame}
    (h : Frame.child ev pipe parent = .ok child) :
    ∃ data inherited, child = ⟨pipe, 0, data, parent.input, none, inherited⟩ := by
  obtain ⟨data, rfl⟩ := bind_eq h
  exact ⟨data, _, rfl⟩

theorem pipe_advance {f g : Frame} (h : f.advance = .ok g) : g.pipe = f.pipe := by
  unfold advance at h
  split at h
  · cases h
    rfl
  · split at h
    · cases h
      rfl
    · cases h

theorem advance_error {f : Frame} {target : String} (h : f.advance = .error target) :
    f.pipe.indexOf? target = none := by
  unfold advance at h
  split at h
  · cases h
  · split at h
    · cases h
    next hnone =>
      cases h
      exact hnone

/-- What a case comes to: its mapped output, or else its input if it has no nodes, and its latest
output if it has. -/
def result (f : Frame) (mapped : Option Json) : Json :=
  match mapped, f.pipe.nodes with
  | some value, _ => value
  | none, [] => (Keyed.get? f.data "input").getD .null
  | none, _ :: _ => (Keyed.get? f.data "output").getD .null

end Frame

@[simp] theorem Stack.root_push (s : Stack) (f : Frame) : (s.push f).root = s.root := by
  simp [Stack.root, Stack.push, List.getLast?_cons]

structure Run.SameRun (r r' : Run) : Prop where
  id : r'.id = r.id
  sid : r'.sid = r.sid
  global : r'.global = r.global

namespace Run

theorem caseResult_eq (child : Frame) (mapped : Option Json) :
    caseResult child mapped = child.result mapped := by
  unfold caseResult Frame.result Pipe.isControl
  cases mapped with
  | some value => rfl
  | none => cases child.pipe.nodes <;> rfl

theorem SameRun.refl (r : Run) : r.SameRun r := ⟨rfl, rfl, rfl⟩

theorem SameRun.trans {r r' r'' : Run} (h : r.SameRun r') (h' : r'.SameRun r'') :
    r.SameRun r'' :=
  ⟨h'.id.trans h.id, h'.sid.trans h.sid, h'.global.trans h.global⟩

theorem pass_eq {r r' : Run} {node : String} {output : Json} (h : r.pass node output = .ok r') :
    ∃ f, (r.stack.top.record node output).advance = .ok f ∧ r' = r.withTop f := by
  unfold pass at h
  split at h
  next f hf =>
    cases h
    exact ⟨f, hf, rfl⟩
  · cases h

theorem pass_error {r : Run} {node : String} {output : Json} {e : RunError}
    (h : r.pass node output = .error e) :
    ∃ target, r.stack.top.pipe.indexOf? target = none ∧
      e = .gotoTargetNotFound r.stack.top.pipe.id target r.id := by
  unfold pass at h
  split at h
  · cases h
  next target ha =>
    cases h
    have hnone := Frame.advance_error ha
    exact ⟨target, hnone, rfl⟩

theorem close_error {ev : Evaluator} {r : Run} {e : RunError} (h : r.close ev = .error e) :
    ∃ x, e = .mapping r.stack.top.pipe.id r.id x := by
  unfold close at h
  dsimp only at h
  split at h
  next x _ =>
    cases h
    exact ⟨x, rfl⟩
  · split at h
    · cases h
    · split at h
      next x _ =>
        cases h
        exact ⟨x, rfl⟩
      · cases h

theorem closeCase_error {ev : Evaluator} {r : Run} {parent : Frame} {rest : List Frame}
    {e : RunError} (h : r.closeCase ev parent rest = .error e) :
    (∃ x, e = .mapping r.stack.top.pipe.id r.id x) ∨
      ∃ target, parent.pipe.indexOf? target = none ∧
        e = .gotoTargetNotFound parent.pipe.id target r.id := by
  unfold closeCase at h
  split at h
  next hc =>
    cases h
    exact .inl (close_error hc)
  · split at h
    · exact .inr (pass_error h)
    · dsimp only at h
      split at h
      · cases h
      next target ha =>
        cases h
        have hnone := Frame.advance_error ha
        exact .inr ⟨target, hnone, rfl⟩

theorem closeRoot_error {ev : Evaluator} {r : Run} {e : RunError}
    (h : r.closeRoot ev = .error e) :
    (∃ x, e = .mapping r.stack.top.pipe.id r.id x) ∨
      ∃ target, r.stack.top.pipe.indexOf? target = none ∧
        e = .gotoTargetNotFound r.stack.top.pipe.id target r.id := by
  unfold closeRoot at h
  split at h
  next hc =>
    cases h
    exact .inl (close_error hc)
  · cases h
  next target _ _ =>
    dsimp only at h
    split at h
    · cases h
    next hnone =>
      cases h
      exact .inr ⟨target, hnone, rfl⟩

theorem restart_error {ev : Evaluator} {r : Run} {e : RunError} {input : List Json}
    (h : r.restart ev input = .error e) : ∃ x, e = .mapping r.pipe.id r.id x := by
  unfold restart at h
  split at h
  next x _ =>
    cases h
    exact ⟨x, rfl⟩
  · cases h

theorem answer_error {ev : Evaluator} {r : Run} {e : RunError} {answers : List Json}
    {n : Node Pipe} (hn : r.stack.top.current? = some n) (h : r.answer ev answers = .error e) :
    (∃ x, e = .mapping r.stack.top.pipe.id r.id x) ∨ (∃ x, e = r.nodeError n x) ∨
      ∃ target, r.stack.top.pipe.indexOf? target = none ∧
        e = .gotoTargetNotFound r.stack.top.pipe.id target r.id := by
  unfold answer at h
  dsimp only at h
  rw [hn] at h
  dsimp only at h
  split at h
  next x _ =>
    cases h
    exact .inl ⟨x, rfl⟩
  next f hf =>
    obtain ⟨data, rfl⟩ := Frame.bind_eq hf
    split at h
    next he =>
      cases h
      unfold mapOutput at he
      split at he
      · cases he
      next spec _ =>
        generalize ev.resolve _ spec = output at he
        cases output with
        | ok output => cases he
        | error x =>
          cases he
          exact .inr (.inl ⟨x, rfl⟩)
    next output _ =>
      obtain ⟨target, hnone, rfl⟩ := pass_error h
      exact .inr (.inr ⟨target, hnone, rfl⟩)

theorem closeCase_eq {ev : Evaluator} {r r' : Run} {parent : Frame} {rest : List Frame}
    (h : r.closeCase ev parent rest = .ok r') :
    ∃ f, f.pipe = parent.pipe ∧ r' = { r with stack := ⟨f, rest⟩ } := by
  unfold closeCase at h
  split at h
  · cases h
  · split at h
    · obtain ⟨f, hf, rfl⟩ := pass_eq h
      have hpipe := Frame.pipe_advance hf
      exact ⟨f, hpipe, rfl⟩
    · dsimp only at h
      split at h
      next f hf =>
        cases h
        have hpipe := Frame.pipe_advance hf
        exact ⟨f, hpipe, rfl⟩
      · cases h

theorem closeCase_node {ev : Evaluator} {r r' : Run} {parent : Frame} {rest : List Frame}
    {n : Node Pipe} (hn : parent.current? = some n) (h : r.closeCase ev parent rest = .ok r') :
    ∃ goto output f,
      (({ parent with jump := goto } : Frame).record n.name output).advance = .ok f ∧
        r' = { r with stack := ⟨f, rest⟩ } := by
  unfold closeCase at h
  split at h
  · cases h
  · rw [hn] at h
    dsimp only at h
    obtain ⟨f, hf, rfl⟩ := pass_eq h
    exact ⟨_, _, f, hf, rfl⟩

theorem closeRoot_eq {ev : Evaluator} {r r' : Run} (h : r.closeRoot ev = .ok (.inl r')) :
    ∃ target i, r.stack.top.pipe.indexOf? target = some i ∧
      r' = r.withTop { r.stack.top with cursor := i } := by
  unfold closeRoot at h
  split at h
  · cases h
  · cases h
  · dsimp only at h
    split at h
    next target _ _ _ i hi =>
      cases h
      exact ⟨target, i, hi, rfl⟩
    · cases h

theorem restart_root {ev : Evaluator} {r r' : Run} {input : List Json}
    (h : r.restart ev input = .ok r') :
    ∃ f, (Frame.root r.pipe r.global r.sid).bind ev input = .ok f ∧
      r' = { r with stack := .single f, paused := none } := by
  unfold restart at h
  split at h
  · cases h
  next f hf =>
    cases h
    exact ⟨f, hf, rfl⟩

theorem answer_node {ev : Evaluator} {r r' : Run} {answers : List Json}
    (h : r.answer ev answers = .ok r') :
    ∃ n f g output, r.stack.top.current? = some n ∧
      r.stack.top.bind ev (r.stack.top.input ++ answers) = .ok f ∧
      (f.record n.name output).advance = .ok g ∧
      r' = { r with stack := ⟨g, r.stack.below⟩, paused := none } := by
  unfold answer at h
  dsimp only at h
  split at h
  · cases h
  next n hn =>
    split at h
    · cases h
    next f hf =>
      split at h
      · cases h
      next output _ =>
        obtain ⟨g, hg, rfl⟩ := pass_eq h
        exact ⟨n, f, g, output, hn, hf, hg, rfl⟩

theorem SameRun.of_restart {ev : Evaluator} {r r' : Run} {input : List Json}
    (h : r.restart ev input = .ok r') : r.SameRun r' := by
  obtain ⟨_, -, rfl⟩ := restart_root h
  exact ⟨rfl, rfl, rfl⟩

theorem SameRun.of_answer {ev : Evaluator} {r r' : Run} {answers : List Json}
    (h : r.answer ev answers = .ok r') : r.SameRun r' := by
  obtain ⟨_, _, _, _, -, -, -, rfl⟩ := answer_node h
  exact ⟨rfl, rfl, rfl⟩

section

variable (r : Run) (p : Option Snapshot)

theorem pass_paused (node : String) (output : Json) :
    ({ r with paused := p } : Run).pass node output =
      (r.pass node output).map fun r' => { r' with paused := p } := by
  unfold pass
  dsimp only
  cases (r.stack.top.record node output).advance <;> rfl

theorem closeCase_paused (ev : Evaluator) (parent : Frame) (rest : List Frame) :
    ({ r with paused := p } : Run).closeCase ev parent rest =
      (r.closeCase ev parent rest).map fun r' => { r' with paused := p } := by
  have hclose : ({ r with paused := p } : Run).close ev = r.close ev := rfl
  simp only [closeCase, hclose]
  cases r.close ev with
  | error e => rfl
  | ok c =>
    dsimp only
    cases parent.current? with
    | some n => exact pass_paused { r with stack := _ } p n.name _
    | none =>
      dsimp only
      cases Frame.advance { parent with jump := c.1.or parent.jump } <;> rfl

theorem closeRoot_paused (ev : Evaluator) :
    ({ r with paused := p } : Run).closeRoot ev =
      (r.closeRoot ev).map (Sum.map (fun r' => { r' with paused := p }) fun value => value) := by
  have hclose : ({ r with paused := p } : Run).close ev = r.close ev := rfl
  simp only [closeRoot, hclose]
  cases r.close ev with
  | error e => rfl
  | ok c =>
    obtain ⟨goto, output⟩ := c
    cases goto with
    | none => rfl
    | some target =>
      dsimp only
      cases r.stack.top.pipe.indexOf? target <;> rfl

end

end Run

end Pipework
