import Pipework.Proofs.Faithful

/-!
# The input that templates see

Where no pipe maps its input, the first pipe shows its input stack. A case shows as long as it runs
the input that was visible where it was entered. Its own stack begins with that input, but takes the
answers that are given in the case.
-/

namespace Pipework

variable {σ : Type}

def Definition.KeepsInput (d : Definition) : Prop :=
  ∀ x ∈ d.within 1, x.2.input = none ∧ ∀ n ∈ x.2.nodes, n.name ≠ some "input"

instance (d : Definition) : Decidable d.KeepsInput :=
  inferInstanceAs (Decidable (∀ x ∈ d.within 1, x.2.input = none ∧
    ∀ n ∈ x.2.nodes, n.name ≠ some "input"))

def Pipe.KeepsInput (p : Pipe) : Prop :=
  ∀ q, p.Inner q → q.input = none ∧ ∀ n ∈ q.nodes, n.name ≠ "input"

theorem Definition.KeepsInput.built {fresh : String} {d : Definition} {p : Pipe}
    (h : d.KeepsInput) (hb : Pipe.build fresh d = .ok p) : p.KeepsInput := by
  intro q hq
  obtain ⟨l, path, hpath, rfl⟩ := hq.descent hb
  obtain ⟨hinput, hnames⟩ := h _ hpath.mem_within
  refine ⟨(hpath.input_eq hb).trans hinput, fun n hn hname => ?_⟩
  obtain ⟨written, hwritten, hname'⟩ := hpath.node_name hb hn
  exact hnames written hwritten (hname ▸ hname')

/-- Every frame shows the values, which are all that the first frame has been given. A case has
inherited them, and its stack goes on where that of the frame below ends. -/
inductive Stack.ShowsInput (xs : List Json) : Stack → Prop
  | root {f : Frame} : Keyed.get? f.data "input" = some (.arr xs) → f.inherited = none →
      f.input = xs → ShowsInput xs ⟨f, []⟩
  | case {f g : Frame} {below : List Frame} : Keyed.get? f.data "input" = some (.arr xs) →
      f.inherited = some (.arr xs) → g.input <+: f.input → ShowsInput xs ⟨g, below⟩ →
      ShowsInput xs ⟨f, g :: below⟩

def shownAfter (xs : List Json) (below : List Frame) (answers : List Json) : List Json :=
  if below.isEmpty then xs ++ answers else xs

def Stack.inputs (s : Stack) : List (List Json) := s.frames.map (·.input)

theorem Frame.bind_unmapped {f : Frame} (h : f.pipe.input = none) (ev : Evaluator)
    (input : List Json) :
    f.bind ev input =
      .ok { f with input := input, data := Keyed.put f.data "input" (f.visibleInput input) } := by
  simp only [bind, h]

namespace Stack.ShowsInput

variable {xs : List Json} {s : Stack} {f g : Frame} {below : List Frame}

theorem top (h : s.ShowsInput xs) : Keyed.get? s.top.data "input" = some (.arr xs) := by
  cases h with
  | root hshown | case hshown => exact hshown

theorem root_input (h : s.ShowsInput xs) : s.root.input = xs := by
  induction h with
  | root _ _ hinput => exact hinput
  | @case f g below _ _ _ _ ih =>
    have hroot : Stack.root ⟨f, g :: below⟩ = Stack.root ⟨g, below⟩ := Stack.root_push ⟨g, below⟩ f
    rw [hroot]
    exact ih

theorem prefix_top (h : s.ShowsInput xs) : xs <+: s.top.input := by
  induction h with
  | root _ _ hinput => exact hinput ▸ List.prefix_rfl
  | case _ _ hgoes _ ih => exact ih.trans hgoes

theorem of_mem (h : s.ShowsInput xs) :
    ∀ f ∈ s.frames, Keyed.get? f.data "input" = some (.arr xs) ∧ xs <+: f.input := by
  induction h with
  | root hshown hnone hinput =>
    intro f hf
    obtain rfl := List.mem_singleton.mp hf
    exact ⟨hshown, (ShowsInput.root hshown hnone hinput).prefix_top⟩
  | case hshown hinherited hgoes hbelow ih =>
    intro f hf
    rcases List.mem_cons.mp hf with rfl | hf
    · exact ⟨hshown, (ShowsInput.case hshown hinherited hgoes hbelow).prefix_top⟩
    · exact ih f hf

theorem replace (h : ShowsInput xs ⟨f, below⟩) (hinput : g.input = f.input)
    (hinherited : g.inherited = f.inherited)
    (hdata : Keyed.get? g.data "input" = Keyed.get? f.data "input") :
    ShowsInput xs ⟨g, below⟩ := by
  cases h with
  | root hshown hnone hxs =>
    exact .root (hdata.trans hshown) (hinherited.trans hnone) (hinput.trans hxs)
  | case hshown hsome hgoes hbelow =>
    exact .case (hdata.trans hshown) (hinherited.trans hsome) (hinput ▸ hgoes) hbelow

theorem record (h : ShowsInput xs ⟨f, below⟩) {n : Node Pipe} {output : Json}
    (hname : n.name ≠ "input") (hg : f.Records n.name output g) : ShowsInput xs ⟨g, below⟩ := by
  refine h.replace hg.input hg.inherited ?_
  rw [hg.data]
  exact Frame.get?_record_of_ne hname.symm (by decide)

theorem pop (h : ShowsInput xs ⟨f, g :: below⟩) : ShowsInput xs ⟨g, below⟩ := by
  cases h with
  | case _ _ _ hbelow => exact hbelow

theorem enter {ev : Evaluator} {q : Pipe} (h : ShowsInput xs ⟨f, below⟩) (hq : q.input = none)
    (hg : Frame.child ev q f = .ok g) : g.input = f.input ∧ ShowsInput xs ⟨g, f :: below⟩ := by
  have hshown := h.top
  dsimp only at hshown
  unfold Frame.child at hg
  rw [Frame.bind_unmapped hq, hshown] at hg
  cases hg
  exact ⟨rfl, .case (Keyed.get?_put_self ..) rfl List.prefix_rfl h⟩

theorem answer {ev : Evaluator} {answers : List Json} (h : ShowsInput xs ⟨f, below⟩)
    (hf : f.pipe.input = none) (hg : f.bind ev (f.input ++ answers) = .ok g) :
    g.input = f.input ++ answers ∧ ShowsInput (shownAfter xs below answers) ⟨g, below⟩ := by
  rw [Frame.bind_unmapped hf] at hg
  cases hg
  refine ⟨rfl, ?_⟩
  cases h with
  | root _ hnone hxs =>
    refine .root ?_ hnone ?_
    · rw [Frame.visibleInput, hnone, hxs]
      exact Keyed.get?_put_self ..
    · rw [hxs]
      rfl
  | case _ hsome hgoes hbelow =>
    refine .case ?_ hsome (hgoes.trans (List.prefix_append ..)) hbelow
    rw [Frame.visibleInput, hsome]
    exact Keyed.get?_put_self ..

theorem map (h : s.ShowsInput xs) {k : Frame → Frame}
    (hk : ∀ f, (k f).input = f.input ∧ (k f).inherited = f.inherited ∧
      Keyed.get? (k f).data "input" = Keyed.get? f.data "input") : (s.map k).ShowsInput xs := by
  induction h with
  | root hshown hnone hinput =>
    obtain ⟨hin, hinherited, hdata⟩ := hk _
    exact .root (hdata.trans hshown) (hinherited.trans hnone) (hin.trans hinput)
  | @case f g below hshown hsome hgoes _ ih =>
    obtain ⟨hin, hinherited, hdata⟩ := hk f
    refine .case (hdata.trans hshown) (hinherited.trans hsome) ?_ ih
    rw [hin, (hk g).1]
    exact hgoes

theorem turns {p : Pipe} (hp : p.KeepsInput) {ev : Evaluator} {s' : Stack}
    {new : List (String × Json)} (hs : s.InPlace p) (h : s.ShowsInput xs)
    (ht : Stack.Turns ev s new s') :
    s'.ShowsInput xs ∧
      (s'.inputs = s.inputs ∨ s'.inputs = s.top.input :: s.inputs ∨
        s.below ≠ [] ∧ s'.inputs = s.inputs.tail) := by
  have hinner := hs.inner
  have hname {f : Frame} {n : Node Pipe} (hf : f ∈ s.frames) (hn : f.current? = some n) :
      n.name ≠ "input" :=
    (hp f.pipe (hinner f hf)).2 n (List.mem_of_getElem? hn)
  cases ht with
  | record hn hg =>
    refine ⟨h.record (hname List.mem_cons_self hn) hg, .inl ?_⟩
    simp only [inputs, frames, List.map_cons, hg.input]
  | @enter f child below n q hn hcase hchild =>
    have hq := hp q (.case (hinner f List.mem_cons_self) (List.mem_of_getElem? hn) hcase)
    obtain ⟨hinput, hshows⟩ := h.enter hq.1 hchild
    refine ⟨hshows, .inr (.inl ?_)⟩
    simp only [inputs, frames, List.map_cons, hinput]
  | @leave top f g rest n output hn hg =>
    have hmem : f ∈ Stack.frames ⟨top, f :: rest⟩ := List.mem_cons_of_mem top List.mem_cons_self
    refine ⟨h.pop.record (hname hmem hn) hg, .inr (.inr ⟨by simp, ?_⟩)⟩
    simp only [inputs, frames, List.map_cons, List.tail_cons, hg.input]
  | again i => exact ⟨h.replace rfl rfl rfl, .inl rfl⟩

end Stack.ShowsInput

structure Run.ShowsInput (r : Run) : Prop where
  stack : r.stack.ShowsInput r.stack.root.input
  paused : ∀ x n, r.paused = some x → r.current? = some n → n.input = none →
    x.data = .arr r.stack.root.input

theorem Stack.ShowsInput.run {r : Run} {xs : List Json} (h : r.stack.ShowsInput xs)
    (hp : r.paused = none) : r.ShowsInput := by
  refine ⟨h.root_input ▸ h, fun x n hx => ?_⟩
  rw [hp] at hx
  cases hx

namespace Run.ShowsInput

variable {p : Pipe} {r r' : Run}

theorem start (id : String) (p : Pipe) : (Run.start id p).ShowsInput := by
  have hshows : (Run.start id p).stack.ShowsInput [] := .root rfl rfl rfl
  exact hshows.run rfl

theorem restart {ev : Evaluator} {input : List Json} (hp : p.KeepsInput) (hs : r.stack.InPlace p)
    (hr : r.restart ev input = .ok r') : r'.stack.ShowsInput input ∧ r'.stack.inputs = [input] := by
  obtain ⟨f, hf, rfl⟩ := Run.restart_root hr
  have hpipe : (Frame.root r.pipe r.global r.sid).pipe.input = none :=
    (hp r.pipe (hs.root ▸ .self)).1
  rw [Frame.bind_unmapped hpipe] at hf
  cases hf
  exact ⟨.root (Keyed.get?_put_self ..) rfl rfl, rfl⟩

theorem answer {ev : Evaluator} {answers : List Json} (hp : p.KeepsInput) (hs : r.stack.InPlace p)
    (h : r.ShowsInput) (hr : r.answer ev answers = .ok r') :
    r'.stack.top.input = r.stack.top.input ++ answers ∧ r'.stack.below = r.stack.below ∧
      r'.stack.ShowsInput (shownAfter r.stack.root.input r.stack.below answers) := by
  obtain ⟨n, f, g, output, hn, hf, hg, rfl⟩ := Run.answer_node hr
  have hmapped := hp _ (hs.inner r.stack.top List.mem_cons_self)
  obtain ⟨hinput, hshows⟩ := h.stack.answer hmapped.1 hf
  have hrecords := Frame.records_of_advance hg
  have hname := hmapped.2 n (List.mem_of_getElem? hn)
  exact ⟨hrecords.input.trans hinput, rfl, hshows.record hname hrecords⟩

theorem map {k : Frame → Frame} (h : r.ShowsInput) (hs : r'.stack = r.stack.map k)
    (hpaused : r'.paused = r.paused)
    (hk : ∀ f, (k f).pipe = f.pipe ∧ (k f).cursor = f.cursor ∧ (k f).input = f.input ∧
      (k f).inherited = f.inherited ∧ Keyed.get? (k f).data "input" = Keyed.get? f.data "input") :
    r'.ShowsInput := by
  have hroot : r'.stack.root.input = r.stack.root.input := by
    rw [hs, Stack.root_map]
    exact (hk _).2.2.1
  refine ⟨?_, fun x n hx hn hmapped => ?_⟩
  · rw [hroot, hs]
    exact h.stack.map fun f => (hk f).2.2
  · rw [hroot]
    refine h.paused x n (hpaused ▸ hx) ?_ hmapped
    rw [Run.current?, hs, Frame.current?] at hn
    rw [Run.current?, Frame.current?, ← hn]
    simp only [Stack.map, (hk r.stack.top).1, (hk r.stack.top).2.1]

end Run.ShowsInput

namespace Engine

variable {eng : Engine σ} {token : Option String}

theorem boundInput_unmapped {f : Frame} {xs : List Json} {n : Node Pipe} {bound : Json}
    (hshown : Keyed.get? f.data "input" = some (.arr xs)) (hn : n.input = none)
    (hb : eng.boundInput f.data n = .ok bound) : bound = .arr xs := by
  simp only [boundInput, hn, hshown, Option.getD_some, Except.ok.injEq] at hb
  exact hb.symm

theorem showsInput_of_paused {l : Loop σ} {x : Snapshot} {t : Scene σ}
    (h : l.scene.run.ShowsInput) (ht : eng.turn token l = .done (.ok (.suspended x)) t) :
    t.run.ShowsInput := by
  cases eng.ends_of_turn ht with
  | paused _ hn _ hd =>
    cases takes_of_dispatch hd with
    | suspend hkind hui hbound hs =>
      subst hs
      refine ⟨h.stack, ?_⟩
      rintro _ n' ⟨⟩ hn' hmapped
      obtain rfl := Option.some.inj (hn.symm.trans hn')
      exact boundInput_unmapped h.stack.top hmapped hbound

theorem Reaches.showsInput {p : Pipe} {r : Run} {log : List (String × Json)}
    (hr : eng.Reaches p r log) (hp : p.KeepsInput) : r.ShowsInput := by
  induction hr with
  | start id => exact .start id p
  | global global _ ih =>
    exact ih.map (k := (·.setGlobal global)) rfl rfl fun f =>
      ⟨rfl, rfl, rfl, rfl, Keyed.get?_put_of_ne _ (by decide) _⟩
  | sid sid _ ih =>
    exact ih.map (k := (·.setSid sid)) rfl rfl fun f =>
      ⟨rfl, rfl, rfl, rfl, Keyed.get?_put_of_ne _ (by decide) _⟩
  | restart hreached hr ih =>
    obtain ⟨hshows, -⟩ := Run.ShowsInput.restart hp hreached.atRest.stack hr
    obtain ⟨f, -, rfl⟩ := Run.restart_root hr
    exact hshows.run rfl
  | answer hreached _ hr ih =>
    obtain ⟨-, -, hshows⟩ := ih.answer hp hreached.atRest.stack hr
    obtain ⟨_, _, _, _, -, -, -, rfl⟩ := Run.answer_node hr
    exact hshows.run rfl
  | more hreached hpaused ht ih =>
    have hplace := hreached.atRest.stack
    obtain ⟨hshows, -⟩ := ih.stack.turns hp hplace (turns_of_more hplace ht)
    exact hshows.run ((paused_of_more ht).trans hpaused)
  | done _ hpaused ht ih =>
    obtain ⟨hs, ⟨x, rfl⟩ | hkept⟩ := stack_of_done ht
    · exact showsInput_of_paused ih ht
    · exact (hs ▸ ih.stack).run (hkept.trans hpaused)

/-- Of a definition that neither maps an input nor calls a node `input`, every frame of a run shows
at any time the input stack of the first pipe, and the stack of each frame begins with it. Turns
change no stack: a case that they enter starts with the stack of the frame below. An answer is put
at the end of the stack of the frame that has asked, and is shown there if that is the first one; a
case shows what it has shown before. A question that maps no input shows what its frame does. -/
theorem input_visible (eng : Engine σ) (w : σ) {fresh : String} {d : Definition} {p : Pipe}
    (hb : Pipe.build fresh d = .ok p) (hd : d.KeepsInput) {before after : List (Action σ)}
    {act : Action σ} {id : String} (hbegins : act.Begins (eng.play (.init w) before) id p) :
    let s := eng.play (.init w) (before ++ act :: after)
    (∀ run, s.HasRun run → run.id = id → ∃ log, eng.Reaches p run log) ∧
    ∀ run log, eng.Reaches p run log →
      let xs := run.stack.root.input
      (∀ f ∈ run.stack.frames, Keyed.get? f.data "input" = some (.arr xs) ∧ xs <+: f.input) ∧
      (∀ input run', run.restart eng.evaluator input = .ok run' →
        run'.stack.inputs = [input] ∧
        Keyed.get? run'.stack.top.data "input" = some (.arr input)) ∧
      (∀ token v left l', eng.turn token ⟨⟨run, v⟩, left⟩ = .more l' →
        l'.scene.run.stack.root.input = xs ∧
        (l'.scene.run.stack.inputs = run.stack.inputs ∨
          l'.scene.run.stack.inputs = run.stack.top.input :: run.stack.inputs ∨
          run.stack.below ≠ [] ∧ l'.scene.run.stack.inputs = run.stack.inputs.tail)) ∧
      (∀ answers run', run.answer eng.evaluator answers = .ok run' →
        run'.stack.top.input = run.stack.top.input ++ answers ∧
        run'.stack.below = run.stack.below ∧
        Keyed.get? run'.stack.top.data "input" =
          some (.arr (if run.stack.below.isEmpty then xs ++ answers else xs))) ∧
      ∀ x n, run.paused = some x → run.current? = some n → n.input = none →
        x.data = .arr xs ∧ x.input = run.stack.top.input := by
  intro s
  have hp := hd.built hb
  refine ⟨fun run hrun hid => eng.reaches_of_begins w hbegins hrun hid, fun run log hrun => ?_⟩
  have hshows := hrun.showsInput hp
  have hrest := hrun.atRest
  refine ⟨hshows.stack.of_mem, fun input run' hr => ?_, fun token v left l' ht => ?_,
    fun answers run' hr => ?_, fun x n hx hn hmapped => ?_⟩
  · obtain ⟨hinput, hinputs⟩ := Run.ShowsInput.restart hp hrest.stack hr
    exact ⟨hinputs, hinput.top⟩
  · obtain ⟨hinput, hinputs⟩ :=
      hshows.stack.turns hp hrest.stack (turns_of_more (l := ⟨⟨run, v⟩, left⟩) hrest.stack ht)
    exact ⟨hinput.root_input, hinputs⟩
  · obtain ⟨htop, hbelow, hinput⟩ := hshows.answer hp hrest.stack hr
    exact ⟨htop, hbelow, hinput.top⟩
  · exact ⟨hshows.paused x n hx hn hmapped, (hrest.paused x hx).input⟩

end Engine

def twiceCase : Definition :=
  ⟨none, none,
    [{ plainNode "ask" with ui := some "web" }, { plainNode "again" with ui := some "web" }],
    none, none, none, none, none⟩

def twiceDefinition : Definition :=
  ⟨none, some "main", [{ plainNode "route" with cases := some [("default", twiceCase)] }], none,
    none, none, none, none⟩

def twiceSystem : System Nat :=
  countingEngine.play (.init 0)
    [.start "r" twiceDefinition.built, .exec 0 [.str "seed"], .turn 0, .turn 0, .settle 0, .drop 0,
      .takeUp "r", .resume 1 [.str "yes"], .turn 1, .settle 1, .drop 1]

theorem visible_twiceSystem :
    ∃ e, twiceSystem.parked.get? "r" = some e ∧ e.run.stack.inputs.length = 2 ∧
      ∀ f ∈ e.run.stack.frames,
        Keyed.get? f.data "input" = some (.arr e.run.stack.root.input) ∧
          e.run.stack.root.input <+: f.input := by
  have hbuilt := Definition.build_built (d := twiceDefinition) (by decide +kernel)
  have hkeeps : twiceDefinition.KeepsInput := by decide +kernel
  have hbegins : Action.Begins (System.init 0) (.start "r" twiceDefinition.built) "r"
      twiceDefinition.built := .start (by simp [System.init])
  have hentry : (twiceSystem.parked.get? "r").map (fun e =>
      (e.run.id, e.run.stack.inputs.length)) = some ("r", 2) := by decide +kernel
  obtain ⟨e, he, hshape⟩ := Option.map_eq_some_iff.mp hentry
  obtain ⟨hid, hlength⟩ := Prod.ext_iff.mp hshape
  obtain ⟨hreaches, hvisible⟩ := @Engine.input_visible _ countingEngine 0 _ _ _ hbuilt hkeeps []
    [.exec 0 [.str "seed"], .turn 0, .turn 0, .settle 0, .drop 0, .takeUp "r",
      .resume 1 [.str "yes"], .turn 1, .settle 1, .drop 1] _ _ hbegins
  obtain ⟨log, hlog⟩ := hreaches e.run (.parked he) hid
  obtain ⟨hframes, -⟩ := hvisible e.run log hlog
  exact ⟨e, he, hlength, hframes⟩

/-- The case still shows what it was entered with, and so does its second question. -/
theorem unshown_twiceSystem :
    Pipe.build "" twiceDefinition = .ok twiceDefinition.built ∧ twiceDefinition.KeepsInput ∧
      ∃ e x, twiceSystem.parked.get? "r" = some e ∧ e.run.paused = some x ∧
        e.run.stack.top.input = [.str "seed", .str "yes"] ∧
        Keyed.get? e.run.stack.top.data "input" = some (.arr [.str "seed"]) ∧
        x.input = [.str "seed", .str "yes"] ∧ x.data = .arr [.str "seed"] := by
  have hbuilt := Definition.build_built (d := twiceDefinition) (by decide +kernel)
  have hkeeps : twiceDefinition.KeepsInput := by decide +kernel
  have hentry : (twiceSystem.parked.get? "r").map (fun e =>
      (e.run.paused.map (fun x => (x.input, x.data)), e.run.stack.top.input,
        Keyed.get? e.run.stack.top.data "input")) =
      some (some ([.str "seed", .str "yes"], .arr [.str "seed"]), [.str "seed", .str "yes"],
        some (.arr [.str "seed"])) := by decide +kernel
  obtain ⟨e, he, hshape⟩ := Option.map_eq_some_iff.mp hentry
  simp only [Prod.mk.injEq, Option.map_eq_some_iff] at hshape
  obtain ⟨⟨x, hx, hinput, hdata⟩, htop, hshown⟩ := hshape
  exact ⟨hbuilt, hkeeps, e, x, he, hx, htop, hshown, hinput, hdata⟩

end Pipework
