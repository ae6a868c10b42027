import Pipework.Proofs.Positions

/-!
# What happens to the frames of a run

An answer puts new input into the innermost frame. A turn records the output of a node in the
innermost frame, enters a case, ends one, or jumps within the first pipe. All else in the frames
stays as it was.
-/

namespace Pipework

variable {σ : Type}

namespace Pipe

inductive Inner (p : Pipe) : Pipe → Prop
  | self : Inner p p
  | case {q q' : Pipe} {n : Node Pipe} : Inner p q → n ∈ q.nodes → n.HasCase q' → Inner p q'

theorem Inner.descent {fresh : String} {d : Definition} {p q : Pipe} (h : p.Inner q)
    (hb : build fresh d = .ok p) : ∃ l path, Descent d p (l :: path) ∧ l.pipe = q := by
  induction h with
  | self => exact ⟨⟨d, p⟩, [], .root, rfl⟩
  | case _ hn hcase ih =>
    obtain ⟨l, path, hpath, rfl⟩ := ih
    obtain ⟨i, hi⟩ := List.mem_iff_getElem?.mp hn
    obtain ⟨e, he⟩ := hpath.of_hasCase hb hi hcase
    exact ⟨_, _, he, rfl⟩

end Pipe

theorem Stack.InPlace.inner {p : Pipe} {s : Stack} (h : s.InPlace p) :
    ∀ f ∈ s.frames, p.Inner f.pipe := by
  obtain ⟨top, below⟩ := s
  induction below generalizing top with
  | nil =>
    intro f hf
    obtain rfl : f = top := List.mem_singleton.mp hf
    exact h.root ▸ .self
  | cons parent rest ih =>
    obtain ⟨hrest, n, hn, hcase⟩ := h.pop
    have hbelow := ih parent hrest
    intro f hf
    rcases List.mem_cons.mp hf with rfl | hf
    · have hparent := hbelow parent List.mem_cons_self
      exact .case hparent (List.mem_of_getElem? hn) hcase
    · exact hbelow f hf

structure Frame.Records (f : Frame) (node : String) (output : Json) (g : Frame) : Prop where
  pipe : g.pipe = f.pipe
  data : g.data = (f.record node output).data
  input : g.input = f.input
  inherited : g.inherited = f.inherited

namespace Frame

theorem records_of_advance {f g : Frame} {node : String} {output : Json}
    (h : (f.record node output).advance = .ok g) : f.Records node output g := by
  unfold advance at h
  split at h
  · cases h
    exact ⟨rfl, rfl, rfl, rfl⟩
  · split at h
    · cases h
      exact ⟨rfl, rfl, rfl, rfl⟩
    · cases h

theorem get?_record_of_ne {f : Frame} {node key : String} {output : Json} (hnode : key ≠ node)
    (hlatest : key ≠ "output") :
    Keyed.get? (f.record node output).data key = Keyed.get? f.data key := by
  rw [record, Keyed.get?_put_of_ne _ hlatest, Keyed.get?_put_of_ne _ hnode]

@[simp] theorem get?_record_output (f : Frame) (node : String) (output : Json) :
    Keyed.get? (f.record node output).data "output" = some output :=
  Keyed.get?_put_self ..

theorem get?_record_self (f : Frame) (node : String) (output : Json) :
    Keyed.get? (f.record node output).data node = some output := by
  rw [record, Keyed.get?_put, Keyed.get?_put_self, ite_self]

theorem get?_bind_of_ne {ev : Evaluator} {f g : Frame} {input : List Json} {key : String}
    (h : f.bind ev input = .ok g) (hkey : key ≠ "input") :
    Keyed.get? g.data key = Keyed.get? f.data key := by
  unfold bind at h
  dsimp only at h
  split at h
  · cases h
    exact Keyed.get?_put_of_ne _ hkey _
  · split at h
    · cases h
    · cases h
      rw [Keyed.put_put]
      exact Keyed.get?_put_of_ne _ hkey _

end Frame

/-- What is kept of an output that is recorded over these frames: only the first pipe counts. -/
def firstPipe (below : List Frame) (node : String) (output : Json) : List (String × Json) :=
  match below with
  | [] => [(node, output)]
  | _ :: _ => []

inductive Stack.Turns (ev : Evaluator) : Stack → List (String × Json) → Stack → Prop
  | record {f g : Frame} {below : List Frame} {n : Node Pipe} {output : Json} :
      f.current? = some n → f.Records n.name output g →
      Turns ev ⟨f, below⟩ (firstPipe below n.name output) ⟨g, below⟩
  | enter {f child : Frame} {below : List Frame} {n : Node Pipe} {q : Pipe} :
      f.current? = some n → n.HasCase q → Frame.child ev q f = .ok child →
      Turns ev ⟨f, below⟩ [] ⟨child, f :: below⟩
  | leave {top f g : Frame} {rest : List Frame} {n : Node Pipe} {output : Json} :
      f.current? = some n → f.Records n.name output g →
      Turns ev ⟨top, f :: rest⟩ (firstPipe rest n.name output) ⟨g, rest⟩
  | again {f : Frame} (i : Nat) : Turns ev ⟨f, []⟩ [] ⟨{ f with cursor := i }, []⟩

namespace Run

def finishedBy (ev : Evaluator) (r : Run) (answers : List Json) : List (String × Json) :=
  match r.current?, r.stack.top.bind ev (r.stack.top.input ++ answers) with
  | some n, .ok f => match (r.withTop f).mapOutput ev n (answerValue answers) with
    | .ok output => firstPipe r.stack.below n.name output
    | .error _ => []
  | _, _ => []

theorem answer_records {ev : Evaluator} {r r' : Run} {answers : List Json}
    (h : r.answer ev answers = .ok r') :
    ∃ n f g output, r.current? = some n ∧
      r.stack.top.bind ev (r.stack.top.input ++ answers) = .ok f ∧ f.Records n.name output g ∧
      r.finishedBy ev answers = firstPipe r.stack.below n.name output ∧
      r' = { r with stack := ⟨g, r.stack.below⟩, paused := none } := by
  unfold answer at h
  dsimp only at h
  split at h
  · cases h
  next n hn =>
    split at h
    · cases h
    next f hf =>
      split at h
      · cases h
      next output ho =>
        obtain ⟨g, hg, rfl⟩ := pass_eq h
        have hfinished : r.finishedBy ev answers = firstPipe r.stack.below n.name output := by
          have hn' : r.current? = some n := hn
          have ho' : (r.withTop f).mapOutput ev n (answerValue answers) = .ok output := ho
          simp only [finishedBy, hn', hf, ho']
        exact ⟨n, f, g, output, hn, hf, Frame.records_of_advance hg, hfinished, rfl⟩

end Run

namespace Engine

def finished (eng : Engine σ) (s : Scene σ) : List (String × Json) :=
  match s.run.current? with
  | some n => match (eng.dispatch s n).1 with
    | .ok (.advance output) => firstPipe s.run.stack.below n.name output
    | _ => []
  | none => match s.run.stack.below with
    | parent :: rest => match parent.current?, s.run.close eng.evaluator with
      | some n, .ok (_, output) =>
        firstPipe rest n.name (s.run.stack.top.result output)
      | _, _ => []
    | [] => []

variable {eng : Engine σ} {p : Pipe} {token : Option String}

theorem turns_of_more {l l' : Loop σ} (hp : l.scene.run.stack.InPlace p)
    (h : eng.turn token l = .more l') :
    Stack.Turns eng.evaluator l.scene.run.stack (eng.finished l.scene) l'.scene.run.stack := by
  obtain ⟨⟨⟨id, sid, global, memory, ⟨top, below⟩, paused⟩, w⟩, left⟩ := l
  cases eng.moves_of_turn h with
  | advance hn _ hd hf =>
    obtain ⟨hs, -⟩ := eng.sameRun_of_dispatch _ _ hd
    simp only [finished, Run.current?, hn, hd, Run.withTop, hs]
    rw [hs] at hf
    exact .record hn (Frame.records_of_advance hf)
  | enter hn _ hd =>
    simp only [finished, Run.current?, hn, hd]
    obtain ⟨cases, c, hk, hc, hchild, rfl⟩ := enter_of_dispatch hd
    have hmem := (mem_of_selectCase hc).resolve_right (by simp)
    exact .enter hn ⟨cases, c, hk, hmem, rfl⟩ hchild
  | leave hn hb hr =>
    dsimp only at hb
    subst hb
    obtain ⟨-, n, hparent, -⟩ := hp.pop
    unfold Run.closeCase at hr
    split at hr
    · cases hr
    next goto output hclose =>
      rw [hparent] at hr
      dsimp only at hr
      obtain ⟨g, hg, rfl⟩ := Run.pass_eq hr
      rw [Run.caseResult_eq] at hg
      simp only [finished, Run.current?, hn, hparent, hclose]
      obtain ⟨hpipe, hdata, hinput, hinherited⟩ := Frame.records_of_advance hg
      exact .leave hparent ⟨hpipe, hdata, hinput, hinherited⟩
  | again hn hb hr =>
    dsimp only at hb
    subst hb
    obtain ⟨target, i, -, rfl⟩ := Run.closeRoot_eq hr
    simp only [finished, Run.current?, hn]
    exact .again i

end Engine

end Pipework
