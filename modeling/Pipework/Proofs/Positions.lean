import Mathlib.Data.List.Chain
import Pipework.Proofs.Nesting
import Pipework.Proofs.Trace
import Pipework.Proofs.Upkeep
import Pipework.Proofs.Withdrawal

/-!
# Where the frames of a run stand

At every turn each frame but the innermost stands at the switch node whose case the next one runs,
and a parked run stands at the question that it shows. So the stack is no deeper than definitions
are nested, an ending case finds its switch node, and a parked run can be answered.
-/

namespace Pipework

variable {σ : Type}

namespace Frame

/-- At a node or behind the last one, and with no jump pending. -/
structure InPlace (f : Frame) : Prop where
  cursor : f.cursor ≤ f.pipe.nodes.length
  jump : f.jump = none

def Inside (f parent : Frame) : Prop := ∃ n, parent.current? = some n ∧ n.HasCase f.pipe

theorem Inside.congr {f g parent : Frame} (h : f.Inside parent) (hp : g.pipe = f.pipe) :
    g.Inside parent := by
  unfold Inside
  rw [hp]
  exact h

theorem InPlace.bind {ev : Evaluator} {f g : Frame} (h : f.InPlace) {input : List Json}
    (hb : f.bind ev input = .ok g) : g.InPlace ∧ g.pipe = f.pipe := by
  obtain ⟨data, rfl⟩ := bind_eq hb
  exact ⟨⟨h.cursor, h.jump⟩, rfl⟩

theorem inPlace_jump {f : Frame} (hj : f.jump = none) {target : String} {i : Nat}
    (h : f.pipe.indexOf? target = some i) : ({ f with cursor := i } : Frame).InPlace :=
  ⟨Nat.le_of_lt (Pipe.lt_of_indexOf? h), hj⟩

theorem inPlace_advance {f g : Frame} {n : Node Pipe} (hn : f.current? = some n) {node : String}
    {output : Json} (h : (f.record node output).advance = .ok g) :
    g.InPlace ∧ g.pipe = f.pipe := by
  obtain ⟨hlt, -⟩ := List.getElem?_eq_some_iff.mp hn
  unfold advance at h
  split at h
  next hj =>
    cases h
    exact ⟨⟨hlt, hj⟩, rfl⟩
  next target _ =>
    split at h
    next i hi =>
      cases h
      exact ⟨⟨Nat.le_of_lt (Pipe.lt_of_indexOf? hi), rfl⟩, rfl⟩
    · cases h

end Frame

namespace Stack

structure InPlace (p : Pipe) (s : Stack) : Prop where
  frames : ∀ f ∈ s.frames, f.InPlace
  inside : s.frames.IsChain Frame.Inside
  root : s.root.pipe = p

variable {p : Pipe} {f parent top : Frame} {below rest : List Frame}

theorem inPlace_single (hf : f.InPlace) : (Stack.single f).InPlace f.pipe where
  frames g hg := by
    rw [List.mem_singleton.mp hg]
    exact hf
  inside := List.isChain_singleton f
  root := rfl

theorem InPlace.innermost (h : InPlace p ⟨top, below⟩) : top.InPlace :=
  h.frames _ List.mem_cons_self

theorem InPlace.replace (h : InPlace p ⟨top, below⟩) (hf : f.InPlace) (hp : f.pipe = top.pipe) :
    InPlace p ⟨f, below⟩ := by
  refine ⟨fun g hg => ?_, ?_, ?_⟩
  · rcases List.mem_cons.mp hg with rfl | hg
    · exact hf
    · exact h.frames g (List.mem_cons_of_mem _ hg)
  · have hinside := h.inside
    cases below with
    | nil => exact List.isChain_singleton f
    | cons parent rest =>
      obtain ⟨htop, hrest⟩ := List.isChain_cons_cons.mp hinside
      exact List.isChain_cons_cons.mpr ⟨htop.congr hp, hrest⟩
  · have hroot := h.root
    cases below with
    | nil => exact hp.trans hroot
    | cons parent rest =>
      rw [← hroot]
      simp only [Stack.root, List.getLast?_cons, Option.getD_some]

theorem InPlace.pop (h : InPlace p ⟨top, parent :: rest⟩) :
    InPlace p ⟨parent, rest⟩ ∧ top.Inside parent := by
  obtain ⟨htop, hrest⟩ := List.isChain_cons_cons.mp h.inside
  refine ⟨⟨fun g hg => h.frames g (List.mem_cons_of_mem _ hg), hrest, ?_⟩, htop⟩
  have hroot := h.root
  rwa [Stack.root, List.getLast?_cons, Option.getD_some] at hroot

theorem InPlace.push {s : Stack} (h : s.InPlace p) (hf : f.InPlace) (hin : f.Inside s.top) :
    (s.push f).InPlace p := by
  refine ⟨fun g hg => ?_, List.isChain_cons_cons.mpr ⟨hin, h.inside⟩, ?_⟩
  · rcases List.mem_cons.mp hg with rfl | hg
    · exact hf
    · exact h.frames g hg
  · rw [root_push, h.root]

theorem InPlace.map {s : Stack} (h : s.InPlace p) {g : Frame → Frame}
    (hg : ∀ f, (g f).pipe = f.pipe ∧ (g f).cursor = f.cursor ∧ (g f).jump = f.jump) :
    (s.map g).InPlace p := by
  have hframes : (s.map g).frames = s.frames.map g := rfl
  refine ⟨fun k hk => ?_, ?_, ?_⟩
  · rw [hframes] at hk
    obtain ⟨f, hf, rfl⟩ := List.mem_map.mp hk
    obtain ⟨hpipe, hcursor, hjump⟩ := hg f
    obtain ⟨hle, hnone⟩ := h.frames f hf
    exact ⟨by rw [hpipe, hcursor]; exact hle, hjump.trans hnone⟩
  · rw [hframes]
    refine List.isChain_map_of_isChain g (fun f parent hin => ?_) h.inside
    obtain ⟨n, hn, hcase⟩ := hin
    obtain ⟨hpipe, hcursor, -⟩ := hg parent
    refine ⟨n, ?_, by rw [(hg f).1]; exact hcase⟩
    rw [Frame.current?, hpipe, hcursor]
    exact hn
  · rw [← h.root, Stack.root, Stack.root, Stack.map]
    dsimp only
    rw [List.getLast?_map]
    cases s.below.getLast? with
    | none => exact (hg s.top).1
    | some f => exact (hg f).1

/-- Down the stack lies a way down the definition. -/
theorem InPlace.descent {fresh : String} {d : Definition} {s : Stack} (h : s.InPlace p)
    (hb : Pipe.build fresh d = .ok p) :
    ∃ l path, Descent d p (l :: path) ∧ l.pipe = s.top.pipe ∧
      path.map (·.pipe) = s.below.map (·.pipe) := by
  obtain ⟨top, below⟩ := s
  -- The way to the frame below is gone on by the case of the node which that frame is at.
  induction below generalizing top with
  | nil => exact ⟨⟨d, p⟩, [], .root, h.root.symm, rfl⟩
  | cons parent rest ih =>
    obtain ⟨hrest, n, hn, hcase⟩ := h.pop
    obtain ⟨l, path, hpath, hl, hpipes⟩ := ih parent hrest
    rw [Frame.current?, ← hl] at hn
    obtain ⟨e, he⟩ := hpath.of_hasCase hb hn hcase
    exact ⟨_, _, he, rfl, by rw [List.map_cons, List.map_cons, hl, hpipes]⟩

theorem InPlace.depth_le {fresh : String} {d : Definition} {s : Stack} (h : s.InPlace p)
    (hb : Pipe.build fresh d = .ok p) : s.frames.length ≤ d.depth := by
  obtain ⟨l, path, hpath, -, hpipes⟩ := h.descent hb
  have hlength := congrArg List.length hpipes
  rw [List.length_map, List.length_map] at hlength
  rw [Stack.frames, List.length_cons, ← hlength]
  exact hpath.length_le

end Stack

structure Snapshot.Describes (x : Snapshot) (r : Run) : Prop where
  id : x.id = r.id
  input : x.input = r.stack.top.input
  type : x.type = .userInput ∧ x.node.type = .userInput
  ui : x.node.ui = x.ui ∧ x.ui.isInteractive = false
  node : ∃ n autofill, r.current? = some n ∧ n.kind = .userInput x.ui autofill ∧
    x.node.name = n.name ∧ x.node.label = n.label

namespace Run

structure AtRest (p : Pipe) (r : Run) : Prop where
  stack : r.stack.InPlace p
  paused : ∀ x, r.paused = some x → x.Describes r

variable {p : Pipe} {r r' : Run}

theorem atRest_start (id : String) (p : Pipe) : (Run.start id p).AtRest p :=
  ⟨Stack.inPlace_single (f := .root p [] "") ⟨Nat.zero_le _, rfl⟩, by simp [start]⟩

theorem AtRest.map (h : r.AtRest p) {g : Frame → Frame} (hid : r'.id = r.id)
    (hpaused : r'.paused = r.paused) (hs : r'.stack = r.stack.map g)
    (hg : ∀ f, (g f).pipe = f.pipe ∧ (g f).cursor = f.cursor ∧ (g f).jump = f.jump ∧
      (g f).input = f.input) : r'.AtRest p := by
  refine ⟨?_, fun x hx => ?_⟩
  · rw [hs]
    exact h.stack.map fun f => ⟨(hg f).1, (hg f).2.1, (hg f).2.2.1⟩
  · obtain ⟨hxid, hinput, htype, hui, n, autofill, hn, hkind, hname, hlabel⟩ :=
      h.paused x (hpaused ▸ hx)
    obtain ⟨hpipe, hcursor, -, hin⟩ := hg r.stack.top
    refine ⟨hxid.trans hid.symm, ?_, htype, hui, n, autofill, ?_, hkind, hname, hlabel⟩
    · rw [hs]
      exact hinput.trans hin.symm
    · rw [Run.current?, hs]
      simp only [Stack.map, Frame.current?, hpipe, hcursor]
      exact hn

theorem inPlace_restart {ev : Evaluator} {input : List Json} (h : r.stack.InPlace p)
    (hr : r.restart ev input = .ok r') : r'.stack.InPlace p := by
  obtain ⟨f, hf, rfl⟩ := restart_root hr
  have hroot : (Frame.root r.pipe r.global r.sid).InPlace := ⟨Nat.zero_le _, rfl⟩
  obtain ⟨hplace, hpipe⟩ := hroot.bind hf
  have hp : f.pipe = p := hpipe.trans h.root
  exact hp ▸ Stack.inPlace_single hplace

theorem inPlace_answer {ev : Evaluator} {answers : List Json} (h : r.stack.InPlace p)
    (hr : r.answer ev answers = .ok r') : r'.stack.InPlace p := by
  obtain ⟨n, f, g, output, hn, hf, hg, rfl⟩ := answer_node hr
  obtain ⟨data, rfl⟩ := Frame.bind_eq hf
  obtain ⟨hplace, hpipe⟩ := Frame.inPlace_advance
    (f := { r.stack.top with input := r.stack.top.input ++ answers, data := data }) hn hg
  exact h.replace hplace hpipe

theorem inPlace_closeCase {ev : Evaluator} {parent : Frame} {rest : List Frame}
    (h : r.stack.InPlace p) (hb : r.stack.below = parent :: rest)
    (hr : r.closeCase ev parent rest = .ok r') : r'.stack.InPlace p := by
  obtain ⟨id, sid, global, memory, ⟨top, below⟩, paused⟩ := r
  dsimp only at hb
  subst hb
  -- The frame below is at the switch node, so the branch for a lost node is never taken.
  obtain ⟨hrest, n, hn, -⟩ := h.pop
  obtain ⟨goto, output, f, hf, rfl⟩ := closeCase_node hn hr
  obtain ⟨hplace, hpipe⟩ := Frame.inPlace_advance (f := { parent with jump := goto }) hn hf
  exact hrest.replace hplace hpipe

theorem inPlace_closeRoot {ev : Evaluator} (h : r.stack.InPlace p)
    (hr : r.closeRoot ev = .ok (.inl r')) : r'.stack.InPlace p := by
  obtain ⟨target, i, hi, rfl⟩ := closeRoot_eq hr
  have hplace := Frame.inPlace_jump h.innermost.jump hi
  exact h.replace hplace rfl

theorem AtRest.answer_ne {r : Run} (h : r.AtRest p) (hp : r.paused.isSome) {ev : Evaluator}
    {answers : List Json} {e : RunError} (hr : r.answer ev answers = .error e) (id : String) :
    e ≠ .notSuspended id := by
  obtain ⟨x, hx⟩ := Option.isSome_iff_exists.mp hp
  obtain ⟨n, -, hn, -⟩ := (h.paused x hx).node
  rintro rfl
  obtain ⟨_, he⟩ | ⟨_, he⟩ | ⟨_, -, he⟩ := Run.answer_error hn hr
  · cases he
  · cases he
  · cases he

end Run

namespace Engine

variable {eng : Engine σ} {p : Pipe} {token : Option String}

theorem inPlace_enter {s s' : Scene σ} {n : Node Pipe} {child : Frame}
    (h : s.run.stack.InPlace p) (hn : s.run.stack.top.current? = some n)
    (hd : eng.dispatch s n = (.ok (.enter child), s')) :
    (s'.run.stack.push child).InPlace p := by
  obtain ⟨cases, c, hk, hc, hchild, rfl⟩ := enter_of_dispatch hd
  obtain ⟨data, inherited, rfl⟩ := Frame.child_eq hchild
  have hmem := (mem_of_selectCase hc).resolve_right (by simp)
  exact h.push ⟨Nat.zero_le _, rfl⟩ ⟨n, hn, cases, c, hk, hmem, rfl⟩

theorem inPlace_of_moves {s : Scene σ} {left : Nat} {l : Loop σ} (h : s.run.stack.InPlace p)
    (hm : eng.Moves s left l) : l.scene.run.stack.InPlace p := by
  cases hm with
  | advance hn _ hd hf =>
    obtain ⟨hs, -⟩ := eng.sameRun_of_dispatch s _ hd
    rw [hs] at hf
    obtain ⟨hplace, hpipe⟩ := Frame.inPlace_advance hn hf
    simp only [Run.withTop, hs]
    exact h.replace hplace hpipe
  | enter hn _ hd => exact inPlace_enter h hn hd
  | leave _ hb hr => exact Run.inPlace_closeCase h hb hr
  | again _ _ hr => exact Run.inPlace_closeRoot h hr

theorem inPlace_of_turn {l l' : Loop σ} (h : l.scene.run.stack.InPlace p)
    (ht : eng.turn token l = .more l') : l'.scene.run.stack.InPlace p :=
  inPlace_of_moves h (eng.moves_of_turn ht)

theorem turn_ne_notSuspended {l : Loop σ} {result : Except RunError Ending} {t : Scene σ}
    (h : eng.turn token l = .done result t) (id : String) : result ≠ .error (.notSuspended id) := by
  rintro rfl
  cases eng.ends_of_turn h with
  | failed _ _ _ hd =>
    have hfails := fails_of_dispatch hd
    cases hfails
  | astray _ _ _ _ hr =>
    obtain ⟨target, -, he⟩ := Run.pass_error hr
    cases he
  | caseFailed _ _ _ hr =>
    obtain ⟨x, he⟩ | ⟨target, -, he⟩ := Run.closeCase_error hr
    · cases he
    · cases he
  | rootFailed _ _ _ hr =>
    obtain ⟨x, he⟩ | ⟨target, -, he⟩ := Run.closeRoot_error hr
    · cases he
    · cases he

theorem runLoop_ne_notSuspended (l : Loop σ) (id : String) :
    (eng.runLoop token l).1 ≠ .error (.notSuspended id) := by
  induction l using eng.loop_induction token with
  | done l result t ht =>
    rw [eng.runLoop_of_done ht]
    exact turn_ne_notSuspended ht id
  | more l l' ht ih =>
    rw [eng.runLoop_of_more ht]
    exact ih

theorem atRest_of_paused {l : Loop σ} {x : Snapshot} {t : Scene σ}
    (h : l.scene.run.stack.InPlace p) (ht : eng.turn token l = .done (.ok (.suspended x)) t) :
    t.run.AtRest p := by
  cases eng.ends_of_turn ht with
  | paused _ hn _ hd =>
    cases takes_of_dispatch hd with
    | suspend hkind hui _ hs =>
      subst hs
      refine ⟨h, ?_⟩
      rintro _ ⟨⟩
      exact ⟨rfl, rfl, ⟨rfl, rfl⟩, ⟨rfl, hui⟩, _, _, hn, hkind, rfl, rfl⟩

structure Concluded (p : Pipe) (result : Except RunError Ending) (r : Run) : Prop where
  refused (id : String) : result ≠ .error (.notSuspended id)
  paused (x : Snapshot) : result = .ok (.suspended x) → r.AtRest p

variable (eng)

theorem upkeep_positions (goes : String → Pipe → Prop) :
    eng.Upkeep (fun r => ∃ q, r.AtRest q ∧ goes r.id q)
      (fun r => ∃ q, r.stack.InPlace q ∧ goes r.id q)
      (fun result r => ∃ q, Concluded q result r ∧ goes r.id q) where
  global global := by
    rintro ⟨q, hrest, hgoes⟩
    exact ⟨q, hrest.map (g := (·.setGlobal global)) rfl rfl rfl fun f => ⟨rfl, rfl, rfl, rfl⟩,
      hgoes⟩
  sid sid := by
    rintro ⟨q, hrest, hgoes⟩
    exact ⟨q, hrest.map (g := (·.setSid sid)) rfl rfl rfl fun f => ⟨rfl, rfl, rfl, rfl⟩, hgoes⟩
  restart := by
    rintro r r' input ⟨q, hrest, hgoes⟩ hr
    refine ⟨q, Run.inPlace_restart hrest.stack hr, ?_⟩
    rw [(Run.SameRun.of_restart hr).id]
    exact hgoes
  unready := by
    rintro r e input ⟨q, -, hgoes⟩ hr
    obtain ⟨x, rfl⟩ := Run.restart_error hr
    exact ⟨q, ⟨by simp, by simp⟩, hgoes⟩
  answer := by
    rintro r r' answers ⟨q, hrest, hgoes⟩ - hr
    refine ⟨q, Run.inPlace_answer hrest.stack hr, ?_⟩
    rw [(Run.SameRun.of_answer hr).id]
    exact hgoes
  unanswered := by
    rintro r e answers ⟨q, hrest, hgoes⟩ hp hr
    refine ⟨q, ⟨fun id => ?_, by simp⟩, hgoes⟩
    rintro ⟨⟩
    exact hrest.answer_ne hp hr id rfl
  more := by
    rintro token l l' ⟨q, hplace, hgoes⟩ ht
    refine ⟨q, inPlace_of_turn hplace ht, ?_⟩
    rw [(eng.moves_of_turn ht).sameRun.id]
    exact hgoes
  done := by
    rintro token l result t ⟨q, hplace, hgoes⟩ ht
    refine ⟨q, ⟨turn_ne_notSuspended ht, ?_⟩, ?_⟩
    · rintro x rfl
      exact atRest_of_paused hplace ht
    · rw [(eng.sameRun_of_done ht).id]
      exact hgoes
  suspended := by
    rintro x r ⟨q, hover, hgoes⟩
    exact ⟨q, hover.paused x rfl, hgoes⟩

abbrev Positioned (goes : String → Pipe → Prop) (s : System σ) : Prop :=
  s.Upheld (fun r => ∃ q, r.AtRest q ∧ goes r.id q) (fun r => ∃ q, r.stack.InPlace q ∧ goes r.id q)
    fun result r => ∃ q, Concluded q result r ∧ goes r.id q

theorem positioned_play (goes : String → Pipe → Prop) (w : σ) {acts : List (Action σ)}
    (hnew : ∀ before act after, acts = before ++ act :: after → ∀ id q,
      act.Begins (eng.play (.init w) before) id q → goes id q) :
    Positioned goes (eng.play (.init w) acts) := by
  have hk := eng.upkeep_positions goes
  refine hk.play (System.sound_init w) (System.upheld_init w) ?_
  intro before act after hsplit id q hbegins
  exact ⟨q, Run.atRest_start id q, hnew before act after hsplit id q hbegins⟩

theorem Upkeep.amended {eng : Engine σ} {rest work : Run → Prop}
    {post : Except RunError Ending → Run → Prop} (hk : eng.Upkeep rest work post) {a b : Attempt}
    (hb : a.Amended b) (h : rest a.run) : rest b.run := by
  induction hb with
  | same => exact h
  | global _ global ih => exact hk.global global ih
  | sid _ sid ih => exact hk.sid sid ih
  | token _ _ ih => exact ih

theorem resume_ne_notSuspended {a : Attempt} (h : a.run.AtRest p) (hp : a.run.paused.isSome)
    (answers : List Json) (s : ParkedRuns) (w : σ) (id : String) :
    (eng.resume a answers s w).1 ≠ .error (.notSuspended id) := by
  obtain ⟨x, hx⟩ := Option.isSome_iff_exists.mp hp
  simp only [resume, hx, conclude]
  cases hr : a.run.answer eng.evaluator answers with
  | error e =>
    rintro ⟨⟩
    exact h.answer_ne hp hr id rfl
  | ok run => exact runLoop_ne_notSuspended _ id

/-- All runs of the system stand where they should, however they have got there: at work, parked or
in hand. Parked runs can be answered, and no call on one says that it is not paused. -/
theorem inPlace_play (w : σ) (acts : List (Action σ)) :
    let s := eng.play (.init w) acts
    (∀ h a run left, s.hands h = some ⟨a, .running run left⟩ →
      run.stack.InPlace run.pipe ∧
      (∀ parent rest, run.stack.below = parent :: rest → run.stack.top.Inside parent) ∧
      ∀ fresh d, Pipe.build fresh d = .ok run.pipe → run.stack.frames.length ≤ d.depth) ∧
    (∀ id e, s.parked.get? id = some e →
      e.run.id = id ∧ e.run.stack.InPlace e.run.pipe ∧
      (∃ x, e.run.paused = some x ∧ x.Describes e.run) ∧
      ∀ fresh d, Pipe.build fresh d = .ok e.run.pipe → e.run.stack.frames.length ≤ d.depth) ∧
    (∀ id a parked, Attempt.takeUp s.parked id = .ok (a, parked) → ∀ b, a.Amended b →
      ∀ answers store v other, (eng.resume b answers store v).1 ≠ .error (.notSuspended other)) ∧
    (∀ h a, s.hands h = some ⟨a, .idle⟩ → a.lease.isSome → ∀ answers,
      (eng.step s (.resume h answers)).hands h =
        some ⟨a, .begin a eng.settings.maxSteps (a.run.answer eng.evaluator answers)⟩) ∧
    ∀ h a result run, s.hands h = some ⟨a, .ended result run⟩ →
      ∀ id, result ≠ .error (.notSuspended id) := by
  intro s
  have hs : s.Sound := System.sound_play eng w acts
  have hk := eng.upkeep_positions fun _ _ => True
  have hu : Positioned (fun _ _ => True) s :=
    eng.positioned_play _ w fun _ _ _ _ _ _ _ => trivial
  refine ⟨fun h a run left hx => ?_, fun id e he => ?_, fun id a parked ht b hb => ?_,
    fun h a hx hlease answers => ?_, fun h a result run hx => ?_⟩
  · obtain ⟨-, q, hplace, -⟩ := hu.hands hx
    obtain rfl : run.pipe = q := hplace.root
    refine ⟨hplace, fun parent rest hb => ?_, fun fresh d hd => hplace.depth_le hd⟩
    obtain ⟨id, sid, global, memory, ⟨top, below⟩, paused⟩ := run
    dsimp only at hb
    subst hb
    exact hplace.pop.2
  · obtain ⟨hid, hp, -⟩ := hs.entry he
    obtain ⟨q, hrest, -⟩ := hu.entries he
    obtain rfl : e.run.pipe = q := hrest.stack.root
    obtain ⟨x, hx⟩ := Option.isSome_iff_exists.mp hp
    exact ⟨hid, hrest.stack, ⟨x, hx, hrest.paused x hx⟩, fun fresh d hd => hrest.stack.depth_le hd⟩
  · obtain ⟨e, he, -, rfl, -⟩ := System.takeUp_ok ht
    obtain ⟨-, hp, -⟩ := hs.entry he
    obtain ⟨q, hrest, -⟩ := hk.amended hb (hu.entries he)
    have hpaused : b.run.paused.isSome := by rwa [hb.holds.2.2]
    exact eng.resume_ne_notSuspended hrest hpaused
  · have hpaused := hs.live hx (by simp) hlease
    obtain ⟨x, hp⟩ := Option.isSome_iff_exists.mp hpaused
    dsimp only at hp
    simp only [step, hx, hp, System.put_hands, Function.update_self]
  · obtain ⟨-, q, hover, -⟩ := hu.hands hx
    exact hover.refused

end Engine

def guardedWait : System Nat :=
  countingEngine.play (.init 0) [.start "r" guardedPipe, .exec 0 [], .turn 0, .turn 0, .turn 0,
    .turn 0, .settle 0, .drop 0]

theorem inPlace_guardedWait :
    ∃ e, guardedWait.parked.get? "r" = some e ∧ e.run.stack.InPlace e.run.pipe ∧
      e.run.stack.frames.length = guardedDefinition.depth ∧
      ∃ x, e.run.paused = some x ∧ x.Describes e.run := by
  have hentry : (guardedWait.parked.get? "r").map (fun e => e.run.stack.frames.length) =
      some guardedDefinition.depth := by
    decide +kernel
  obtain ⟨e, he, hlength⟩ := Option.map_eq_some_iff.mp hentry
  obtain ⟨-, hentries, -⟩ := countingEngine.inPlace_play 0 [.start "r" guardedPipe, .exec 0 [],
    .turn 0, .turn 0, .turn 0, .turn 0, .settle 0, .drop 0]
  obtain ⟨-, hplace, hpaused, -⟩ := hentries "r" e he
  exact ⟨e, he, hplace, hlength, hpaused⟩

end Pipework
