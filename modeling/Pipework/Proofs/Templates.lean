import Pipework.Proofs.Permission

/-!
# Only what a definition writes is a template

Evaluators that agree on the templates of a definition cannot be told apart by its runs. So what
comes in while a pipe runs, such as inputs, answers, replies and texts already rendered, is data for
templates and never a template itself.
-/

namespace Pipework

variable {σ : Type}

namespace Json

mutual
def strings : Json → List String
  | .str s => [s]
  | .arr items => stringsOfItems items
  | .obj fields => stringsOfFields fields
  | .null => []
  | .bool _ => []
  | .int _ => []
  | .float _ => []
termination_by structural j => j

def stringsOfItems : List Json → List String
  | [] => []
  | x :: xs => strings x ++ stringsOfItems xs
termination_by structural items => items

def stringsOfFields : List (String × Json) → List String
  | [] => []
  | (_, x) :: xs => strings x ++ stringsOfFields xs
termination_by structural fields => fields
end

end Json

def mappingTemplates (mapping : Option Json) : List String := (mapping.map Json.strings).getD []

namespace NodeDef

variable {π : Type}

def templates (n : NodeDef π) : List String :=
  mappingTemplates (n.process.map (·.args)) ++ mappingTemplates n.request
    ++ n.prompts.map (·.content) ++ mappingTemplates n.options ++ n.autofill.toList
    ++ (n.cases.getD []).map (·.1) ++ mappingTemplates n.input ++ mappingTemplates n.output

end NodeDef

namespace Definition

def own (d : Definition) : List String :=
  d.goto.toList ++ mappingTemplates d.input ++ mappingTemplates d.output
    ++ d.nodes.flatMap NodeDef.templates

def templates (d : Definition) : List String := (d.within 1).flatMap fun x => x.2.own

end Definition

def NodeKind.templates {π : Type} : NodeKind π → List String
  | .process _ args => args.strings
  | .switch cases => cases.map (·.expression)
  | .ai prompts _ options => prompts.map (·.content) ++ options.strings
  | .request payload => payload.strings
  | .userInput _ autofill => autofill.toList

def Node.templates {π : Type} (n : Node π) : List String :=
  n.kind.templates ++ mappingTemplates n.input ++ mappingTemplates n.output

def Pipe.templates (p : Pipe) : List String :=
  p.goto.toList ++ mappingTemplates p.input ++ mappingTemplates p.output
    ++ p.nodes.flatMap Node.templates

theorem Pipe.Makes.templates_subset {h : Pipe.Header} {n : NodeDef Definition} {name : String}
    {kind : NodeKind Pipe} (hm : Pipe.Makes h n name kind) : kind.templates ⊆ n.templates := by
  intro t ht
  simp only [NodeDef.templates, List.mem_append]
  cases hm with
  | process hspec _ =>
    have hargs : t ∈ mappingTemplates (n.process.map (·.args)) := by
      rw [hspec]
      exact ht
    simp only [hargs, true_or]
  | request hpayload =>
    have hrequest : t ∈ mappingTemplates n.request := by
      rw [hpayload]
      exact ht
    simp only [hrequest, true_or, or_true]
  | ai =>
    rcases List.mem_append.mp ht with hprompt | hoption
    · simp only [hprompt, true_or, or_true]
    · have hoptions : t ∈ mappingTemplates n.options := by
        cases ho : n.options with
        | none =>
          rw [ho] at hoption
          cases hoption
        | some options =>
          rw [ho] at hoption
          exact hoption
      simp only [hoptions, true_or, or_true]
  | userInput ui =>
    have hautofill : t ∈ n.autofill.toList := ht
    simp only [hautofill, true_or, or_true]
  | switch hwritten hcases =>
    obtain ⟨c, hc, rfl⟩ := List.mem_map.mp ht
    obtain ⟨j, hj⟩ := List.getElem?_of_mem hc
    obtain ⟨d, hd, -⟩ := Pipe.casesOf_ok hcases hj
    have hexpression : c.expression ∈ (n.cases.getD []).map (·.1) := by
      rw [hwritten]
      exact List.mem_map_of_mem (List.mem_of_getElem? hd)
    simp only [hexpression, true_or, or_true]

theorem Descent.templates_subset {fresh : String} {d : Definition} {p : Pipe} {l : Place}
    {path : List Place} (h : Descent d p (l :: path)) (hb : Pipe.build fresh d = .ok p) :
    l.pipe.templates ⊆ d.templates := by
  obtain ⟨header, hpipe, -, -⟩ := h.built hb
  have hown : l.written.own ⊆ d.templates := by
    intro t ht
    exact List.mem_flatMap.mpr ⟨_, h.mem_within, ht⟩
  have hnodes : l.pipe.nodes.flatMap Node.templates ⊆
      l.written.nodes.flatMap NodeDef.templates := by
    intro t ht
    obtain ⟨node, hmem, ht⟩ := List.mem_flatMap.mp ht
    obtain ⟨i, hi⟩ := List.getElem?_of_mem hmem
    obtain ⟨n, hn, hinput, houtput, hmakes⟩ := Pipe.node_of_pipeOf hpipe hi
    refine List.mem_flatMap.mpr ⟨n, List.mem_of_getElem? hn, ?_⟩
    simp only [Node.templates, List.mem_append, hinput, houtput] at ht
    rcases ht with (hkind | hin) | hout
    · exact hmakes.templates_subset hkind
    · simp only [NodeDef.templates, List.mem_append, hin, true_or, or_true]
    · simp only [NodeDef.templates, List.mem_append, hout, or_true]
  refine List.Subset.trans (fun t ht => ?_) hown
  obtain ⟨nodes, -, hl⟩ := Pipe.pipeOf_ok hpipe
  rw [hl] at ht hnodes
  simp only [Pipe.templates, List.mem_append] at ht
  simp only [Definition.own, List.mem_append]
  rcases ht with hmapping | hnode
  · exact .inl hmapping
  · exact .inr (hnodes hnode)

namespace Evaluator

def AgreeOn (ev ev' : Evaluator) (templates : List String) : Prop :=
  ∀ t ∈ templates, ∀ data, ev.render t data = ev'.render t data ∧ ev.test t data = ev'.test t data

variable {ev ev' : Evaluator}

theorem AgreeOn.mono {ts us : List String} (h : ev.AgreeOn ev' ts) (hsub : us ⊆ ts) :
    ev.AgreeOn ev' us :=
  fun t ht => h t (hsub ht)

mutual
theorem resolve_congr (data : Json) :
    (j : Json) → ev.AgreeOn ev' j.strings → ev.resolve data j = ev'.resolve data j
  | .str t, h => (h t List.mem_cons_self data).1
  | .arr items, h => by
    have hitems := resolveItems_congr data items h
    simp only [resolve, hitems]
  | .obj fields, h => by
    have hfields := resolveFields_congr data fields h
    simp only [resolve, hfields]
  | .null, _ => rfl
  | .bool _, _ => rfl
  | .int _, _ => rfl
  | .float _, _ => rfl

theorem resolveItems_congr (data : Json) :
    (items : List Json) → ev.AgreeOn ev' (Json.stringsOfItems items) →
      ev.resolveItems data items = ev'.resolveItems data items
  | [], _ => rfl
  | x :: xs, h => by
    have hx := resolve_congr data x (h.mono (List.subset_append_left ..))
    have hxs := resolveItems_congr data xs (h.mono (List.subset_append_right ..))
    simp only [resolveItems, hx, hxs]

theorem resolveFields_congr (data : Json) :
    (fields : List (String × Json)) → ev.AgreeOn ev' (Json.stringsOfFields fields) →
      ev.resolveFields data fields = ev'.resolveFields data fields
  | [], _ => rfl
  | (key, x) :: xs, h => by
    have hx := resolve_congr data x (h.mono (List.subset_append_left ..))
    have hxs := resolveFields_congr data xs (h.mono (List.subset_append_right ..))
    simp only [resolveFields, hx, hxs]
end

theorem resolveGoto_congr {goto : Option String} (h : ev.AgreeOn ev' goto.toList) (data : Json) :
    ev.resolveGoto goto data = ev'.resolveGoto goto data := by
  cases goto with
  | none => rfl
  | some t =>
    have hrender := (h t (by simp) data).1
    simp only [resolveGoto, hrender]

end Evaluator

variable {ev ev' : Evaluator}

theorem selectCase_congr {cases : List (Case Pipe)}
    (h : ev.AgreeOn ev' (cases.map (·.expression))) (data : Json) (fallback : Option (Case Pipe)) :
    selectCase ev data fallback cases = selectCase ev' data fallback cases := by
  induction cases generalizing fallback with
  | nil => rfl
  | cons c cases ih =>
    have htest := (h c.expression (by simp) data).2
    have hrest := ih (h.mono (List.subset_cons_self ..))
    simp only [selectCase, htest, hrest]

theorem renderPrompts_congr {prompts : List Prompt}
    (h : ev.AgreeOn ev' (prompts.map (·.content))) (data : Json) :
    renderPrompts ev data prompts = renderPrompts ev' data prompts := by
  induction prompts with
  | nil => rfl
  | cons p prompts ih =>
    have hrender := (h p.content (by simp) data).1
    have hrest := ih (h.mono (List.subset_cons_self ..))
    simp only [renderPrompts, hrender, hrest]

theorem Frame.bind_congr {f : Frame} (h : ev.AgreeOn ev' (mappingTemplates f.pipe.input))
    (input : List Json) : f.bind ev input = f.bind ev' input := by
  unfold bind
  cases hi : f.pipe.input with
  | none => rfl
  | some spec =>
    rw [hi] at h
    simp only [Evaluator.resolve_congr _ spec h]

theorem Frame.child_congr {pipe : Pipe} (h : ev.AgreeOn ev' (mappingTemplates pipe.input))
    (parent : Frame) : Frame.child ev pipe parent = Frame.child ev' pipe parent :=
  bind_congr h _

namespace Run

variable {r : Run}

theorem mapOutput_congr {n : Node Pipe} (h : ev.AgreeOn ev' (mappingTemplates n.output))
    (raw : Json) : r.mapOutput ev n raw = r.mapOutput ev' n raw := by
  unfold mapOutput
  cases ho : n.output with
  | none => rfl
  | some spec =>
    rw [ho] at h
    simp only [Evaluator.resolve_congr _ spec h]

theorem close_congr (h : ev.AgreeOn ev' r.stack.top.pipe.templates) :
    r.close ev = r.close ev' := by
  have hmapping : ev.AgreeOn ev' (r.stack.top.pipe.goto.toList
      ++ mappingTemplates r.stack.top.pipe.input ++ mappingTemplates r.stack.top.pipe.output) :=
    h.mono (List.subset_append_left ..)
  have hgoto := Evaluator.resolveGoto_congr
    (hmapping.mono (List.Subset.trans (List.subset_append_left ..) (List.subset_append_left ..)))
    r.stack.top.dataValue
  unfold close
  cases ho : r.stack.top.pipe.output with
  | none => simp only [hgoto, ho]
  | some spec =>
    rw [ho] at hmapping
    have hresolve := Evaluator.resolve_congr r.stack.top.dataValue spec
      (hmapping.mono (List.subset_append_right ..))
    simp only [hgoto, ho, hresolve]

theorem closeCase_congr (h : ev.AgreeOn ev' r.stack.top.pipe.templates) (parent : Frame)
    (rest : List Frame) : r.closeCase ev parent rest = r.closeCase ev' parent rest := by
  simp only [closeCase, close_congr h]

theorem closeRoot_congr (h : ev.AgreeOn ev' r.stack.top.pipe.templates) :
    r.closeRoot ev = r.closeRoot ev' := by
  simp only [closeRoot, close_congr h]

end Run

theorem Pipe.inputTemplates_subset (p : Pipe) : mappingTemplates p.input ⊆ p.templates := by
  intro t ht
  simp only [Pipe.templates, List.mem_append, ht, true_or, or_true]

theorem Frame.templates_subset {f : Frame} {n : Node Pipe} (hn : f.current? = some n) :
    n.templates ⊆ f.pipe.templates := by
  intro t ht
  have hnodes : t ∈ f.pipe.nodes.flatMap Node.templates :=
    List.mem_flatMap.mpr ⟨n, List.mem_of_getElem? hn, ht⟩
  simp only [Pipe.templates, List.mem_append, hnodes, or_true]

theorem Node.outputTemplates_subset {π : Type} (n : Node π) :
    mappingTemplates n.output ⊆ n.templates :=
  List.subset_append_right ..

theorem Node.inputTemplates_subset {π : Type} (n : Node π) :
    mappingTemplates n.input ⊆ n.templates :=
  List.Subset.trans (List.subset_append_right ..) (List.subset_append_left ..)

theorem Node.kindTemplates_subset {π : Type} (n : Node π) : n.kind.templates ⊆ n.templates :=
  List.Subset.trans (List.subset_append_left ..) (List.subset_append_left ..)

namespace Run

variable {r : Run}

theorem restart_congr (h : ev.AgreeOn ev' r.pipe.templates) (input : List Json) :
    r.restart ev input = r.restart ev' input := by
  have hbind : (Frame.root r.pipe r.global r.sid).bind ev input =
      (Frame.root r.pipe r.global r.sid).bind ev' input :=
    Frame.bind_congr (f := .root r.pipe r.global r.sid) (h.mono r.pipe.inputTemplates_subset)
      input
  simp only [restart, hbind]

theorem answer_congr (h : ev.AgreeOn ev' r.stack.top.pipe.templates) (answers : List Json) :
    r.answer ev answers = r.answer ev' answers := by
  have hbind := Frame.bind_congr (h.mono r.stack.top.pipe.inputTemplates_subset)
    (r.stack.top.input ++ answers)
  unfold answer
  dsimp only
  cases hn : r.stack.top.current? with
  | none => rfl
  | some n =>
    have hout (r' : Run) (raw : Json) : r'.mapOutput ev n raw = r'.mapOutput ev' n raw :=
      mapOutput_congr ((h.mono (Frame.templates_subset hn)).mono n.outputTemplates_subset) raw
    simp only [hbind, hout]

end Run

namespace Engine

def evaluating (eng : Engine σ) (ev : Evaluator) : Engine σ := { eng with evaluator := ev }

variable {eng : Engine σ}

structure AgreeAt (eng : Engine σ) (ev : Evaluator) (r : Run) : Prop where
  top : eng.evaluator.AgreeOn ev r.stack.top.pipe.templates
  case {n : Node Pipe} {q : Pipe} : r.current? = some n → n.HasCase q →
    eng.evaluator.AgreeOn ev q.templates

section

variable {s : Scene σ} {n : Node Pipe}

theorem resolve_evaluating {data j : Json} (h : eng.evaluator.AgreeOn ev j.strings) :
    (eng.evaluating ev).evaluator.resolve data j = eng.evaluator.resolve data j :=
  (Evaluator.resolve_congr data j h).symm

theorem mapOutput_evaluating (h : eng.evaluator.AgreeOn ev n.templates) (r : Run) (raw : Json) :
    r.mapOutput (eng.evaluating ev).evaluator n raw = r.mapOutput eng.evaluator n raw :=
  (Run.mapOutput_congr (h.mono n.outputTemplates_subset) raw).symm

theorem finish_evaluating (h : eng.evaluator.AgreeOn ev n.templates)
    (answer : Except NodeError Json × σ) :
    (eng.evaluating ev).finish s n answer = eng.finish s n answer := by
  obtain ⟨answer, w⟩ := answer
  cases answer with
  | error e => rfl
  | ok raw => simp only [finish, mapOutput_evaluating h]

theorem dispatchAi_evaluating (h : eng.evaluator.AgreeOn ev n.templates) {prompts : List Prompt}
    {model : String} {options : Json}
    (hk : eng.evaluator.AgreeOn ev (prompts.map (·.content) ++ options.strings)) :
    (eng.evaluating ev).dispatchAi s n prompts model options =
      eng.dispatchAi s n prompts model options := by
  have hprompts (data : Json) : renderPrompts (eng.evaluating ev).evaluator data prompts =
      renderPrompts eng.evaluator data prompts :=
    (renderPrompts_congr (hk.mono (List.subset_append_left ..)) data).symm
  have hoptions := hk.mono (List.subset_append_right ..)
  simp only [dispatchAi, hprompts, resolve_evaluating hoptions]
  cases renderPrompts eng.evaluator s.run.stack.top.dataValue prompts with
  | error e => rfl
  | ok prompts =>
    cases eng.evaluator.resolve s.run.stack.top.dataValue options with
    | error e => rfl
    | ok options =>
      simp only [readReply, mapOutput_evaluating h]
      rfl

theorem dispatchSwitch_evaluating {cases : List (Case Pipe)}
    (hk : eng.evaluator.AgreeOn ev (cases.map (·.expression)))
    (hcase : ∀ c ∈ cases, eng.evaluator.AgreeOn ev c.pipe.templates) :
    (eng.evaluating ev).dispatchSwitch s n cases = eng.dispatchSwitch s n cases := by
  have hselect (data : Json) (fallback : Option (Case Pipe)) :
      selectCase (eng.evaluating ev).evaluator data fallback cases =
        selectCase eng.evaluator data fallback cases :=
    (selectCase_congr hk data fallback).symm
  simp only [dispatchSwitch, hselect]
  cases hc : selectCase eng.evaluator s.run.stack.top.dataValue none cases with
  | error e => rfl
  | ok selected =>
    cases selected with
    | none => rfl
    | some c =>
      have hmem := (mem_of_selectCase hc).resolve_right (by simp)
      have hchild : Frame.child (eng.evaluating ev).evaluator c.pipe s.run.stack.top =
          Frame.child eng.evaluator c.pipe s.run.stack.top :=
        (Frame.child_congr ((hcase c hmem).mono c.pipe.inputTemplates_subset) _).symm
      simp only [hchild]

theorem dispatchUserInput_evaluating (h : eng.evaluator.AgreeOn ev n.templates) {ui : UiKind}
    {autofill : Option String} (hk : eng.evaluator.AgreeOn ev autofill.toList) :
    (eng.evaluating ev).dispatchUserInput s n ui autofill =
      eng.dispatchUserInput s n ui autofill := by
  have hbound (data : Keyed Json) :
      (eng.evaluating ev).boundInput data n = eng.boundInput data n := by
    have hinput := h.mono n.inputTemplates_subset
    unfold boundInput
    cases hi : n.input with
    | none => rfl
    | some spec =>
      rw [hi] at hinput
      exact resolve_evaluating hinput
  have hseed (data : Json) : (eng.evaluating ev).seed data autofill = eng.seed data autofill := by
    cases autofill with
    | none => rfl
    | some t =>
      have hrender := (hk t (by simp) data).1
      simp only [seed, hrender]
      rfl
  simp only [dispatchUserInput, hbound, hseed]
  cases eng.boundInput s.run.stack.top.data n with
  | error e => rfl
  | ok bound =>
    cases ui.isInteractive with
    | false => rfl
    | true =>
      cases eng.seed s.run.stack.top.dataValue autofill with
      | error e => rfl
      | ok seed => exact finish_evaluating h _

theorem dispatch_evaluating (h : eng.AgreeAt ev s.run) (hn : s.run.current? = some n) :
    (eng.evaluating ev).dispatch s n = eng.dispatch s n := by
  have hnode := h.top.mono (Frame.templates_subset hn)
  have hkind := hnode.mono n.kindTemplates_subset
  cases hk : n.kind with
  | process name args =>
    rw [hk] at hkind
    simp only [dispatch, hk, resolve_evaluating hkind]
    cases eng.evaluator.resolve s.run.stack.top.dataValue args with
    | error e => rfl
    | ok args => exact finish_evaluating hnode _
  | request payload =>
    rw [hk] at hkind
    simp only [dispatch, hk, resolve_evaluating hkind]
    cases eng.evaluator.resolve s.run.stack.top.dataValue payload with
    | error e => rfl
    | ok payload => exact finish_evaluating hnode _
  | ai prompts model options =>
    rw [hk] at hkind
    simp only [dispatch, hk]
    exact dispatchAi_evaluating hnode hkind
  | switch cases =>
    rw [hk] at hkind
    have hcase (c : Case Pipe) (hmem : c ∈ cases) : eng.evaluator.AgreeOn ev c.pipe.templates :=
      h.case hn ⟨cases, c, hk, hmem, rfl⟩
    simp only [dispatch, hk, dispatchSwitch_evaluating hkind hcase]
  | userInput ui autofill =>
    rw [hk] at hkind
    simp only [dispatch, hk]
    exact dispatchUserInput_evaluating hnode hkind

end

theorem turn_evaluating {l : Loop σ} (h : eng.AgreeAt ev l.scene.run) (token : Option String) :
    (eng.evaluating ev).turn token l = eng.turn token l := by
  have hcase (parent : Frame) (rest : List Frame) :
      l.scene.run.closeCase (eng.evaluating ev).evaluator parent rest =
        l.scene.run.closeCase eng.evaluator parent rest :=
    (Run.closeCase_congr h.top parent rest).symm
  have hroot : l.scene.run.closeRoot (eng.evaluating ev).evaluator =
      l.scene.run.closeRoot eng.evaluator := (Run.closeRoot_congr h.top).symm
  have hcancel (token : Option String) (w : σ) :
      (eng.evaluating ev).isCancelled token w = eng.isCancelled token w := rfl
  unfold turn
  simp only [hcancel, hcase, hroot]
  cases hn : l.scene.run.stack.top.current? with
  | none => rfl
  | some n =>
    have hnode (left : Nat) :
        (eng.evaluating ev).runNode l.scene n left = eng.runNode l.scene n left := by
      simp only [runNode, dispatch_evaluating h hn]
    simp only [hnode]
    rfl

theorem agreeAt_of_inPlace {fresh : String} {d : Definition} {q : Pipe} {r : Run}
    (hr : r.stack.InPlace q) (hb : Pipe.build fresh d = .ok q)
    (ha : eng.evaluator.AgreeOn ev d.templates) : eng.AgreeAt ev r := by
  obtain ⟨l, path, hpath, hpipe, -⟩ := hr.descent hb
  refine ⟨?_, fun {n q'} hn hcase => ?_⟩
  · rw [← hpipe]
    exact ha.mono (hpath.templates_subset hb)
  · rw [Run.current?, Frame.current?, ← hpipe] at hn
    obtain ⟨e, he⟩ := hpath.of_hasCase hb hn hcase
    exact ha.mono (he.templates_subset hb)

/-- Every pipe that is begun or registered is built of a definition on whose templates the
evaluators agree. -/
def Agreeing (ev ev' : Evaluator) (acts : List (Action σ)) : Prop :=
  ∀ act ∈ acts, ∀ q, act.pipe? = some q →
    ∃ fresh d, Pipe.build fresh d = .ok q ∧ ev.AgreeOn ev' d.templates

theorem step_evaluating {s : System σ}
    (hs : Positioned (fun _ q => ∃ fresh d, Pipe.build fresh d = .ok q ∧
      eng.evaluator.AgreeOn ev d.templates) s) (act : Action σ) :
    (eng.evaluating ev).step s act = eng.step s act := by
  cases act with
  | exec h input =>
    simp only [step]
    split
    next a hx =>
      obtain ⟨⟨q, hrest, fresh, d, hb, ha⟩, -⟩ := hs.hands hx
      have hroot : eng.evaluator.AgreeOn ev a.run.pipe.templates := by
        rw [show a.run.pipe = q from hrest.stack.root]
        exact ha.mono (Descent.root.templates_subset hb)
      have hrestart : a.run.restart (eng.evaluating ev).evaluator input =
          a.run.restart eng.evaluator input := (Run.restart_congr hroot input).symm
      rw [hrestart]
      rfl
    · rfl
  | resume h answers =>
    simp only [step]
    split
    next a hx =>
      obtain ⟨⟨q, hrest, fresh, d, hb, ha⟩, -⟩ := hs.hands hx
      have hanswer : a.run.answer (eng.evaluating ev).evaluator answers =
          a.run.answer eng.evaluator answers :=
        (Run.answer_congr (agreeAt_of_inPlace hrest.stack hb ha).top answers).symm
      rw [hanswer]
      rfl
    · rfl
  | turn h =>
    simp only [step]
    split
    next a run left hx =>
      obtain ⟨-, q, hplace, fresh, d, hb, ha⟩ := hs.hands hx
      have hagree : eng.AgreeAt ev run := agreeAt_of_inPlace hplace hb ha
      rw [turn_evaluating (l := ⟨⟨run, s.world⟩, left⟩) hagree]
    · rfl
  | create | start | takeUp | withGlobal | withSid | withToken | settle | drop | close | prune
  | register | unregister | outside => rfl

theorem play_evaluating (eng : Engine σ) {w : σ} {acts : List (Action σ)}
    (hacts : Agreeing eng.evaluator ev acts) :
    (eng.evaluating ev).play (.init w) acts = eng.play (.init w) acts := by
  -- From the end, since what is known of the runs is known after steps of the first engine.
  induction acts using List.reverseRecOn with
  | nil => rfl
  | append_singleton acts act ih =>
    have hbefore : Agreeing eng.evaluator ev acts := fun other hmem =>
      hacts other (List.mem_append_left _ hmem)
    have hpositioned : Positioned (fun _ q => ∃ fresh d, Pipe.build fresh d = .ok q ∧
        eng.evaluator.AgreeOn ev d.templates) (eng.play (.init w) acts) := by
      refine eng.positioned_play _ w fun before first after hsplit id q hbegins => ?_
      obtain ⟨other, hmem, hq⟩ := pipe_of_begins hbegins after
      exact hbefore other (hsplit ▸ hmem) q hq
    have hstep := step_evaluating hpositioned act
    rw [play_append, play_append, ih hbefore]
    exact hstep

/-- Whatever clients do with runs of pipes that have been built, evaluators that agree on what the
definitions write as templates lead to the same system: the same attempts with the same results, the
same parked runs, and the same calls with the same arguments. -/
theorem same_of_agreeing (eng : Engine σ) (ev : Evaluator) (w : σ) :
    (∀ acts : List (Action σ), Agreeing eng.evaluator ev acts →
      (eng.evaluating ev).play (.init w) acts = eng.play (.init w) acts) ∧
    ∀ acts : List (Action (σ × List Call)), Agreeing eng.evaluator ev acts →
      (eng.evaluating ev).traced.play (.init (w, [])) acts =
        eng.traced.play (.init (w, [])) acts :=
  ⟨fun _ hacts => eng.play_evaluating hacts, fun _ hacts => eng.traced.play_evaluating hacts⟩

end Engine

def strictEvaluator : Evaluator where
  render t data := if t ∈ guardedDefinition.templates then countingEngine.evaluator.render t data
    else .error (.template t)
  test t data := if t ∈ guardedDefinition.templates then countingEngine.evaluator.test t data
    else .error (.template t)

def guardedScript : List (Action (Nat × List Call)) :=
  [.register guardedPipe, .create "r" "main", .exec 0 [.str "seed"], .turn 0, .turn 0, .turn 0,
    .turn 0, .settle 0, .drop 0, .takeUp "r", .resume 1 [.str "answer"], .turn 1, .turn 1,
    .settle 1, .drop 1]

theorem agreeing_guardedScript :
    Engine.Agreeing countingEngine.evaluator strictEvaluator guardedScript := by
  have hagree : countingEngine.evaluator.AgreeOn strictEvaluator guardedDefinition.templates :=
    fun t ht data => by simp only [strictEvaluator, if_pos ht, and_self]
  intro act hmem q hq
  simp only [guardedScript, List.mem_cons, List.not_mem_nil, or_false] at hmem
  have hpipe : q = guardedPipe := by
    rcases hmem with rfl | rfl | rfl | rfl | rfl | rfl | rfl | rfl | rfl | rfl | rfl | rfl | rfl |
      rfl | rfl <;> cases hq
    rfl
  exact ⟨"", guardedDefinition, hpipe ▸ build_guardedDefinition, hagree⟩

theorem same_guardedScript :
    Engine.Agreeing countingEngine.evaluator strictEvaluator guardedScript ∧
      strictEvaluator.render "answer" .null ≠ countingEngine.evaluator.render "answer" .null ∧
      ((countingEngine.evaluating strictEvaluator).traced.play (.init (0, []))
        guardedScript).world.2.length = 3 := by
  have hcalls : (countingEngine.traced.play (.init (0, [])) guardedScript).world.2.length = 3 := by
    decide +kernel
  have hforeign : "answer" ∉ guardedDefinition.templates := by decide +kernel
  have hstrict : strictEvaluator.render "answer" .null = .error (.template "answer") := by
    simp only [strictEvaluator, if_neg hforeign]
  obtain ⟨-, hsame⟩ := countingEngine.same_of_agreeing strictEvaluator 0
  refine ⟨agreeing_guardedScript, ?_, ?_⟩
  · rw [hstrict]
    exact nofun
  · rw [hsame guardedScript agreeing_guardedScript]
    exact hcalls

end Pipework
