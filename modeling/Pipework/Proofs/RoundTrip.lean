import Pipework.Definition.Decode
import Pipework.Definition.Encode
import Pipework.Proofs.Nesting
import Pipework.Proofs.Readback

/-!
# Definitions that are read back

A definition that has been read and then is written as a value is read back from that value as it
was, if no expression comes twice among the cases of one node. What is left out on writing is what
the reader fills in. Of a repeated expression only the last case is written, so such a definition
cannot come back.
-/

namespace Pipework

open Doc (Reader Restores Fits)

/-- A value that may be left out. Null is not told apart from a value that is left out. -/
def Json.Given (o : Option Json) : Prop := ∀ j ∈ o, j ≠ .null ∧ j.Distinct

structure NodeDef.Sound (n : NodeDef Definition) : Prop where
  args : ∀ p ∈ n.process, p.args.Distinct
  request : Json.Given n.request
  options : Json.Given n.options
  input : Json.Given n.input
  output : Json.Given n.output

namespace Definition

inductive Sound : Definition → Prop
  | mk {d : Definition} : Json.Given d.input → Json.Given d.output → (∀ n ∈ d.nodes, n.Sound) →
      (∀ e, d.HasCase e → Sound e) → Sound d

inductive Unrepeated : Definition → Prop
  | mk {d : Definition} : (∀ n ∈ d.nodes, ∀ cases ∈ n.cases, (Keyed.keys cases).Nodup) →
      (∀ e, d.HasCase e → Unrepeated e) → Unrepeated d

/-! ## The fields that are written -/

theorem nodesJson_eq (ns : List (NodeDef Definition)) : nodesJson ns = ns.map nodeJson := by
  induction ns with
  | nil => rfl
  | cons n ns ih => rw [nodesJson, ih, List.map_cons]

theorem casesJson_eq (cases : List (String × Definition)) :
    casesJson cases = cases.map fun c => (c.1, c.2.toJson) := by
  induction cases with
  | nil => rfl
  | cons c cases ih => rw [casesJson, ih, List.map_cons]

def processJson (p : ProcessSpec) : Json := .obj [("name", .str p.name), ("args", p.args)]

section

variable (key other : String)

theorem keys_textField (s : Option String) : (Keyed.keys (textField key s)).Sublist [key] := by
  cases s <;> simp [textField, Keyed.keys]

theorem keys_valueField (j : Option Json) : (Keyed.keys (valueField key j)).Sublist [key] := by
  cases j <;> simp [valueField, Keyed.keys]

theorem keys_listField (js : List Json) : (Keyed.keys (listField key js)).Sublist [key] := by
  cases js <;> simp [listField, Keyed.keys]

theorem keys_processField (p : Option ProcessSpec) :
    (Keyed.keys (processField p)).Sublist ["process"] := by
  cases p <;> simp [processField, Keyed.keys]

theorem get?_textField (s : Option String) :
    Keyed.get? (textField key s) other = if key = other then s.map .str else none := by
  cases s <;> simp [textField, Keyed.get?]

theorem get?_valueField (j : Option Json) :
    Keyed.get? (valueField key j) other = if key = other then j else none := by
  cases j <;> simp [valueField, Keyed.get?]

theorem get?_listField (js : List Json) :
    Keyed.get? (listField key js) other =
      if key = other ∧ js ≠ [] then some (.arr js) else none := by
  cases js <;> simp [listField, Keyed.get?]

theorem get?_processField (p : Option ProcessSpec) :
    Keyed.get? (processField p) other = if "process" = other then p.map processJson else none := by
  cases p <;> simp [processField, processJson, Keyed.get?]

end

def fields (d : Definition) : Keyed Json :=
  textField "id" d.id ++ textField "name" d.name ++ ("nodes", .arr (nodesJson d.nodes))
    :: textField "goto" d.goto ++ valueField "input" d.input ++ valueField "output" d.output
    ++ valueField "whitelist" (d.whitelist.map fun ps => .arr (ps.map .str))
    ++ [("hooks", .obj (textField "progress" d.progress))]

theorem toJson_eq (d : Definition) : d.toJson = .obj d.fields := by
  cases d
  rfl

theorem keys_fields (d : Definition) : (Keyed.keys d.fields).Sublist pipeFields := by
  simp only [fields, Keyed.keys_append]
  exact ((((((keys_textField ..).append (keys_textField ..)).append
    ((keys_textField ..).cons_cons "nodes")).append (keys_valueField ..)).append
    (keys_valueField ..)).append (keys_valueField ..)).append (List.Sublist.refl ["hooks"])

theorem get?_fields (d : Definition) :
    pipeFields.map (Keyed.get? d.fields) =
      [d.id.map .str, d.name.map .str, some (.arr (nodesJson d.nodes)), d.goto.map .str, d.input,
        d.output, d.whitelist.map fun ps => .arr (ps.map .str),
        some (.obj (textField "progress" d.progress))] := by
  simp [pipeFields, fields, Keyed.get?_append, get?_textField, get?_valueField, Keyed.get?]

end Definition

def NodeDef.fields (n : NodeDef Definition) : Keyed Json :=
  Definition.textField "name" n.name ++ Definition.textField "label" n.label
    ++ Definition.processField n.process ++ Definition.valueField "request" n.request
    ++ Definition.listField "prompts" (n.prompts.map Prompt.toJson)
    ++ Definition.textField "model" n.model ++ Definition.valueField "options" n.options
    ++ Definition.textField "ui" n.ui ++ Definition.textField "autofill" n.autofill
    ++ Definition.valueField "case" (Definition.caseField n.cases)
    ++ Definition.valueField "input" n.input ++ Definition.valueField "output" n.output

namespace Definition

theorem nodeJson_eq (n : NodeDef Definition) : nodeJson n = .obj n.fields := by
  cases n
  rfl

theorem keys_nodeFields (n : NodeDef Definition) : (Keyed.keys n.fields).Sublist nodeFields := by
  simp only [NodeDef.fields, Keyed.keys_append]
  exact (((((((((((keys_textField ..).append (keys_textField ..)).append
    (keys_processField ..)).append (keys_valueField ..)).append (keys_listField ..)).append
    (keys_textField ..)).append (keys_valueField ..)).append (keys_textField ..)).append
    (keys_textField ..)).append (keys_valueField ..)).append (keys_valueField ..)).append
    (keys_valueField ..)

theorem get?_nodeFields (n : NodeDef Definition) :
    nodeFields.map (Keyed.get? n.fields) =
      [n.name.map .str, n.label.map .str, n.process.map processJson, n.request,
        if n.prompts = [] then none else some (.arr (n.prompts.map Prompt.toJson)),
        n.model.map .str, n.options, n.ui.map .str, n.autofill.map .str, caseField n.cases, n.input,
        n.output] := by
  simp [nodeFields, NodeDef.fields, Keyed.get?_append, get?_textField, get?_valueField,
    get?_listField, get?_processField]

end Definition

/-! ## The readers of the parts -/

theorem optional_text {levels : Nat} (o : Option String) :
    Doc.optional Doc.readText levels ((o.map Json.str).map Doc.ofJson) = some o := by
  cases o <;> rfl

theorem optional_value {levels : Nat} {o : Option Json} (h : Json.Given o)
    (hfits : ∀ j ∈ o, Fits levels j) :
    Doc.optional Doc.toJson? levels (o.map Doc.ofJson) = some o := by
  have hvalue : ∀ j ∈ o, id j ≠ .null ∧ Restores Doc.toJson? j (id j) := by
    intro j hj
    exact ⟨(h j hj).1, Doc.restores_value (h j hj).2⟩
  have hread := Doc.optional_restores hvalue hfits
  rwa [Option.map_id] at hread

theorem restores_prompt (p : Prompt) : Restores Prompt.read p p.toJson := by
  intro levels hfits
  obtain ⟨role, name, content⟩ := p
  obtain ⟨inner, rfl, hread, -⟩ := Doc.readFields_written
    (by cases name <;> simp [Keyed.keys]) hfits ["role", "name", "content"]
  rw [Prompt.read, Prompt.toJson, hread]
  cases name <;> rfl

theorem restores_process {p : ProcessSpec} (h : p.args.Distinct) :
    Restores ProcessSpec.read p (Definition.processJson p) := by
  intro levels hfits
  obtain ⟨name, args⟩ := p
  obtain ⟨inner, rfl, hread, hinner⟩ := Doc.readFields_written
    (by simp [Keyed.keys]) hfits ["name", "args"]
  have hargs : Doc.toJson? inner (Doc.ofJson args) = some args :=
    Doc.restores_value h inner (hinner _ (by simp [Keyed.get?]) args rfl)
  rw [ProcessSpec.read, Definition.processJson, hread]
  simp [Keyed.get?, Doc.withDefault, Doc.ofJson, Doc.readText, hargs]

theorem restores_hooks (progress : Option String) :
    Restores Definition.readHooks progress (.obj (Definition.textField "progress" progress)) := by
  intro levels hfits
  obtain ⟨inner, rfl, hread, -⟩ := Doc.readFields_written
    (by cases progress <;> simp [Definition.textField, Keyed.keys]) hfits ["progress"]
  rw [Definition.readHooks, hread]
  simp only [List.map_cons, List.map_nil, Definition.get?_textField, if_true]
  exact optional_text progress

namespace Definition

theorem read_prompts {levels : Nat} {ps : List Prompt}
    (hfits : ∀ j ∈ (if ps = [] then none else some (Json.arr (ps.map Prompt.toJson))),
      Fits levels j) :
    Doc.withDefault [] (Doc.readList Prompt.read) levels
      ((if ps = [] then none else some (Json.arr (ps.map Prompt.toJson))).map Doc.ofJson) =
        some ps := by
  by_cases h : ps = []
  · rw [if_pos h, h]
    rfl
  · rw [if_neg h] at hfits ⊢
    exact Doc.restores_list (fun p _ => restores_prompt p) levels (hfits _ rfl)

theorem readNode_eq {levels inner : Nat} {d : Doc}
    {name label process request prompts model options ui autofill cases input output : Option Doc}
    (h : Doc.readFields nodeFields (levels + 1) d = some (inner, [name, label, process, request,
      prompts, model, options, ui, autofill, cases, input, output])) :
    readNode (levels + 1) d = (do
      let name ← Doc.optional Doc.readText levels name
      let label ← Doc.optional Doc.readText levels label
      let process ← Doc.optional ProcessSpec.read levels process
      let request ← Doc.optional Doc.toJson? levels request
      let prompts ← Doc.withDefault [] (Doc.readList Prompt.read) levels prompts
      let model ← Doc.optional Doc.readText levels model
      let options ← Doc.optional Doc.toJson? levels options
      let ui ← Doc.optional Doc.readText levels ui
      let autofill ← Doc.optional Doc.readText levels autofill
      let cases ← Doc.optional readCases levels cases
      let input ← Doc.optional Doc.toJson? levels input
      let output ← Doc.optional Doc.toJson? levels output
      some ⟨name, label, process, request, prompts, model, options, ui, autofill, cases, input,
        output⟩) := by
  rw [readNode, h]
  cases cases <;> rfl

theorem read_eq {levels inner : Nat} {d : Doc}
    {id name nodes goto input output whitelist hooks : Option Doc}
    (h : Doc.readFields pipeFields (levels + 1) d =
      some (inner, [id, name, nodes, goto, input, output, whitelist, hooks])) :
    read (levels + 1) d = (do
      let id ← Doc.optional Doc.readText levels id
      let name ← Doc.optional Doc.readText levels name
      let nodes ← Doc.withDefault [] readNodes levels nodes
      let goto ← Doc.optional Doc.readText levels goto
      let input ← Doc.optional Doc.toJson? levels input
      let output ← Doc.optional Doc.toJson? levels output
      let whitelist ← Doc.optional (Doc.readList Doc.readText) levels whitelist
      let progress ← Doc.withDefault none readHooks levels hooks
      some ⟨id, name, nodes, goto, input, output, whitelist, progress⟩) := by
  rw [read, h]
  cases nodes <;> rfl

theorem restores_cases {cases : List (String × Definition)}
    (h : ∀ c ∈ cases, Restores read c.2 c.2.toJson) :
    Restores readCases cases (.obj (casesJson cases)) := by
  intro levels hfits
  obtain ⟨inner, rfl, hinner⟩ := hfits.obj
  rw [casesJson_eq] at hinner ⊢
  rw [readCases, Doc.ofJson, Doc.ofFields_eq, Doc.objectFields?, Option.bind_some, List.map_map,
    mapM_map_eq_some]
  intro c hc
  have hread := h c hc inner (hinner _ (List.mem_map_of_mem hc))
  simp [hread]

theorem optional_cases {levels : Nat} {o : Option (List (String × Definition))}
    (hkeys : ∀ cases ∈ o, (Keyed.keys cases).Nodup)
    (hcases : ∀ cases ∈ o, ∀ c ∈ cases, Restores read c.2 c.2.toJson)
    (hfits : ∀ j ∈ caseField o, Fits levels j) :
    Doc.optional readCases levels ((caseField o).map Doc.ofJson) = some o := by
  cases o with
  | none => rfl
  | some cases =>
    have hnodup : (Keyed.keys (casesJson cases)).Nodup := by
      rw [casesJson_eq, Keyed.keys, List.map_map]
      exact hkeys cases rfl
    rw [caseField, Keyed.ofPairs_of_nodup hnodup] at hfits ⊢
    have hread := restores_cases (hcases cases rfl) levels (hfits _ rfl)
    rw [Option.map_some, Doc.optional, hread]
    rfl

theorem restores_node {n : NodeDef Definition} (hn : n.Sound)
    (hkeys : ∀ cases ∈ n.cases, (Keyed.keys cases).Nodup)
    (hcases : ∀ cases ∈ n.cases, ∀ c ∈ cases, Restores read c.2 c.2.toJson) :
    Restores readNode n (nodeJson n) := by
  intro levels hfits
  rw [nodeJson_eq] at hfits ⊢
  obtain ⟨inner, rfl, hread, hinner⟩ := Doc.readFields_written
    ((keys_nodeFields n).nodup (by decide)) hfits nodeFields
  rw [get?_nodeFields] at hread hinner
  simp only [List.forall_mem_cons] at hinner
  obtain ⟨-, -, hprocess, hrequest, hprompts, -, hoptions, -, -, hcase, hinput, houtput, -⟩ := hinner
  have hspec : Doc.optional ProcessSpec.read inner ((n.process.map processJson).map Doc.ofJson) =
      some n.process := by
    apply Doc.optional_restores
    · intro p hp
      exact ⟨nofun, restores_process (hn.args p hp)⟩
    · intro p hp
      exact hprocess _ (Option.mem_map_of_mem _ hp)
  rw [readNode_eq hread]
  simp only [optional_text, hspec, optional_value hn.request hrequest,
    optional_value hn.options hoptions, optional_value hn.input hinput,
    optional_value hn.output houtput, read_prompts hprompts, optional_cases hkeys hcases hcase,
    Option.bind_eq_bind, Option.bind_some]

theorem restores_nodes {ns : List (NodeDef Definition)}
    (h : ∀ n ∈ ns, Restores readNode n (nodeJson n)) :
    Restores readNodes ns (.arr (nodesJson ns)) := by
  intro levels hfits
  obtain ⟨inner, rfl, hinner⟩ := hfits.arr
  rw [nodesJson_eq] at hinner ⊢
  rw [readNodes, Doc.ofJson, Doc.ofItems_eq, Doc.listItems?, Option.bind_some, List.map_map]
  apply mapM_map_eq_some
  intro n hn
  exact h n hn inner (hinner _ (List.mem_map_of_mem hn))

/-- Down the cases: what is written of a sound definition is read as that definition. -/
theorem restores_toJson {d : Definition} (hd : d.Sound) (hu : d.Unrepeated) :
    Restores read d d.toJson := by
  induction hd with
  | @mk d hinput houtput hnodes _ ih =>
    obtain ⟨hkeys, hinside⟩ := hu
    intro levels hfits
    rw [toJson_eq] at hfits ⊢
    obtain ⟨inner, rfl, hread, hinner⟩ := Doc.readFields_written
      ((keys_fields d).nodup (by decide)) hfits pipeFields
    rw [get?_fields] at hread hinner
    simp only [List.forall_mem_cons] at hinner
    obtain ⟨-, -, hnodesFit, -, hinputFits, houtputFits, hlistFits, hhooksFit, -⟩ := hinner
    have hnodesRead : readNodes inner (Doc.ofJson (.arr (nodesJson d.nodes))) = some d.nodes := by
      refine restores_nodes (fun n hn => ?_) inner (hnodesFit _ rfl)
      apply restores_node (hnodes n hn) (hkeys n hn)
      intro cases hcases c hc
      have hcase : d.HasCase c.2 := ⟨n, hn, cases, hcases, c.1, hc⟩
      exact ih c.2 hcase (hinside c.2 hcase)
    have hlist : Doc.optional (Doc.readList Doc.readText) inner
        ((d.whitelist.map fun ps => Json.arr (ps.map .str)).map Doc.ofJson) = some d.whitelist := by
      apply Doc.optional_restores
      · intro ps _
        exact ⟨nofun, Doc.restores_list fun p _ => Doc.restores_text p⟩
      · intro ps hps
        exact hlistFits _ (Option.mem_map_of_mem _ hps)
    have hhooks := restores_hooks d.progress inner (hhooksFit _ rfl)
    rw [read_eq hread]
    simp only [Option.map_some, optional_text, hnodesRead, optional_value hinput hinputFits,
      optional_value houtput houtputFits, hlist, Doc.withDefault, hhooks, Option.bind_eq_bind,
      Option.bind_some]
    cases d
    rfl

/-! ## What has been read is sound -/

end Definition

theorem Json.given_of_optional {levels : Nat} {o : Option Doc} {v : Option Json}
    (ho : ∀ x ∈ o, x.IsJson) (h : Doc.optional Doc.toJson? levels o = some v) : Json.Given v := by
  cases o with
  | none =>
    cases h
    nofun
  | some x =>
    have hx : x.IsJson := ho x rfl
    obtain ⟨isNull, hnull, h⟩ := Option.bind_eq_some_iff.mp h
    cases isNull with
    | true =>
      cases h
      nofun
    | false =>
      obtain ⟨j, hj, rfl⟩ := Option.map_eq_some_iff.mp h
      intro k hk
      cases hk
      refine ⟨?_, Doc.distinct_of_toJson? hx hj⟩
      rintro rfl
      rw [Doc.eq_null_of_toJson? hx hj] at hnull
      cases hnull

namespace Definition

theorem distinct_args {levels : Nat} {doc : Doc} {p : ProcessSpec} (hdoc : doc.IsJson)
    (h : ProcessSpec.read levels doc = some p) : p.args.Distinct := by
  rw [ProcessSpec.read] at h
  split at h
  next inner name args hread =>
    have hargs := Doc.isJson_of_readFields hdoc hread args (by simp)
    obtain ⟨name', -, h⟩ := Option.bind_eq_some_iff.mp h
    obtain ⟨args', hargs', h⟩ := Option.bind_eq_some_iff.mp h
    cases h
    cases args with
    | none =>
      cases hargs'
      exact .null
    | some x => exact Doc.distinct_of_toJson? (hargs x rfl) hargs'
  · cases h

theorem of_optional {α : Type} {read : Reader α} {levels : Nat} {o : Option Doc} {v : Option α}
    (h : Doc.optional read levels o = some v) : ∀ a ∈ v, ∃ x ∈ o, read levels x = some a := by
  cases o with
  | none =>
    cases h
    nofun
  | some x =>
    obtain ⟨isNull, -, h⟩ := Option.bind_eq_some_iff.mp h
    cases isNull with
    | true =>
      cases h
      nofun
    | false =>
      obtain ⟨b, hb, rfl⟩ := Option.map_eq_some_iff.mp h
      rintro a ⟨⟩
      exact ⟨x, rfl, hb⟩

def SoundNode (n : NodeDef Definition) : Prop :=
  n.Sound ∧ ∀ cases ∈ n.cases, ∀ c ∈ cases, c.2.Sound

theorem soundNode_of_readNode {levels : Nat} {doc : Doc} {n : NodeDef Definition}
    (ih : ∀ doc cases, doc.IsJson → readCases levels doc = some cases → ∀ c ∈ cases, c.2.Sound)
    (hdoc : doc.IsJson) (h : readNode (levels + 1) doc = some n) : SoundNode n := by
  -- one copy says which fields there are, the other is read with the cases like any other field
  have hcopy := h
  rw [readNode] at hcopy
  split at hcopy
  next name label process request prompts model options ui autofill cases input output hread =>
    have hfound := Doc.isJson_of_readFields hdoc hread
    simp only [List.forall_mem_cons] at hfound
    obtain ⟨-, -, hprocess, hrequest, -, -, hoptions, -, -, hcases, hinput, houtput, -⟩ := hfound
    rw [readNode_eq hread] at h
    obtain ⟨name', -, h⟩ := Option.bind_eq_some_iff.mp h
    obtain ⟨label', -, h⟩ := Option.bind_eq_some_iff.mp h
    obtain ⟨process', rprocess, h⟩ := Option.bind_eq_some_iff.mp h
    obtain ⟨request', rrequest, h⟩ := Option.bind_eq_some_iff.mp h
    obtain ⟨prompts', -, h⟩ := Option.bind_eq_some_iff.mp h
    obtain ⟨model', -, h⟩ := Option.bind_eq_some_iff.mp h
    obtain ⟨options', roptions, h⟩ := Option.bind_eq_some_iff.mp h
    obtain ⟨ui', -, h⟩ := Option.bind_eq_some_iff.mp h
    obtain ⟨autofill', -, h⟩ := Option.bind_eq_some_iff.mp h
    obtain ⟨cases', rcases, h⟩ := Option.bind_eq_some_iff.mp h
    obtain ⟨input', rinput, h⟩ := Option.bind_eq_some_iff.mp h
    obtain ⟨output', routput, h⟩ := Option.bind_eq_some_iff.mp h
    cases h
    refine ⟨⟨?_, Json.given_of_optional hrequest rrequest, Json.given_of_optional hoptions roptions,
      Json.given_of_optional hinput rinput, Json.given_of_optional houtput routput⟩, ?_⟩
    · intro p hp
      obtain ⟨x, hx, hxp⟩ := of_optional rprocess p hp
      exact distinct_args (hprocess x hx) hxp
    · intro cs hcs
      obtain ⟨x, hx, hxcs⟩ := of_optional rcases cs hcs
      exact ih x cs (hcases x hx) hxcs
  · cases hcopy

theorem sound_of_fields {levels : Nat} {doc : Doc} {d : Definition}
    (ih : ∀ doc ns, doc.IsJson → readNodes levels doc = some ns → ∀ n ∈ ns, SoundNode n)
    (hdoc : doc.IsJson) (h : read (levels + 1) doc = some d) : d.Sound := by
  have hcopy := h
  rw [read] at hcopy
  split at hcopy
  next id name nodes goto input output whitelist hooks hread =>
    have hfound := Doc.isJson_of_readFields hdoc hread
    simp only [List.forall_mem_cons] at hfound
    obtain ⟨-, -, hnodes, -, hinput, houtput, -⟩ := hfound
    rw [read_eq hread] at h
    obtain ⟨id', -, h⟩ := Option.bind_eq_some_iff.mp h
    obtain ⟨name', -, h⟩ := Option.bind_eq_some_iff.mp h
    obtain ⟨nodes', rnodes, h⟩ := Option.bind_eq_some_iff.mp h
    obtain ⟨goto', -, h⟩ := Option.bind_eq_some_iff.mp h
    obtain ⟨input', rinput, h⟩ := Option.bind_eq_some_iff.mp h
    obtain ⟨output', routput, h⟩ := Option.bind_eq_some_iff.mp h
    obtain ⟨whitelist', -, h⟩ := Option.bind_eq_some_iff.mp h
    obtain ⟨progress', -, h⟩ := Option.bind_eq_some_iff.mp h
    cases h
    have hsound : ∀ n ∈ nodes', SoundNode n := by
      cases nodes with
      | none =>
        cases rnodes
        exact List.forall_mem_nil _
      | some x => exact ih x nodes' (hnodes x rfl) rnodes
    refine .mk (Json.given_of_optional hinput rinput) (Json.given_of_optional houtput routput)
      (fun n hn => (hsound n hn).1) ?_
    rintro e ⟨n, hn, cases, hcases, expression, he⟩
    exact (hsound n hn).2 cases hcases (expression, e) he
  · cases hcopy

theorem sound_of_reader (levels : Nat) :
    (∀ doc d, doc.IsJson → read levels doc = some d → d.Sound) ∧
    (∀ doc ns, doc.IsJson → readNodes levels doc = some ns → ∀ n ∈ ns, SoundNode n) ∧
    (∀ doc n, doc.IsJson → readNode levels doc = some n → SoundNode n) ∧
    (∀ doc cases, doc.IsJson → readCases levels doc = some cases → ∀ c ∈ cases, c.2.Sound) := by
  induction levels with
  | zero =>
    have hblank {doc : Doc} (hdoc : doc.IsJson) : doc.isBlank = false := by cases hdoc <;> rfl
    refine ⟨fun doc d _ h => ?_, fun doc ns hdoc h => ?_, fun doc n _ h => ?_,
      fun doc cases hdoc h => ?_⟩
    · cases h
    · rw [readNodes, hblank hdoc] at h
      cases h
    · cases h
    · rw [readCases, hblank hdoc] at h
      cases h
  | succ levels ih =>
    obtain ⟨definition, nodes, node, cases⟩ := ih
    refine ⟨fun doc d hdoc h => sound_of_fields nodes hdoc h, ?_,
      fun doc n hdoc h => soundNode_of_readNode cases hdoc h, ?_⟩
    · intro doc ns hdoc h n hn
      obtain ⟨items, hitems, h⟩ := Option.bind_eq_some_iff.mp h
      obtain ⟨x, hx, hxn⟩ := exists_of_mapM_eq_some h n hn
      exact node x n (Doc.isJson_of_listItems? hdoc hitems x hx) hxn
    · intro doc cs hdoc h c hc
      obtain ⟨fields, hfields, h⟩ := Option.bind_eq_some_iff.mp h
      obtain ⟨f, hf, hfc⟩ := exists_of_mapM_eq_some h c hc
      obtain ⟨expression, -, hfc⟩ := Option.bind_eq_some_iff.mp hfc
      obtain ⟨d, hd, rfl⟩ := Option.map_eq_some_iff.mp hfc
      exact definition f.2 d (Doc.isJson_of_objectFields? hdoc hfields f hf) hd

/-- Some JSON text or some JSON value is read as the definition. -/
def Decodes (d : Definition) : Prop := (∃ s, ofText? s = some d) ∨ ∃ j, ofJson? j = some d

theorem Decodes.sound {d : Definition} (h : d.Decodes) : d.Sound := by
  rcases h with ⟨s, hs⟩ | ⟨j, hj⟩
  · obtain ⟨doc, hdoc, hread⟩ := Option.bind_eq_some_iff.mp hs
    exact (sound_of_reader _).1 doc d (Doc.isJson_of_parse? hdoc) hread
  · exact (sound_of_reader _).1 _ d (Doc.isJson_ofJson j) hj

theorem build_fresh {d : Definition} (h : d.id ≠ none ∨ d.name ≠ none) (fresh other : String) :
    Pipe.build fresh d = Pipe.build other d := by
  have hheader : Pipe.rootHeader fresh d = Pipe.rootHeader other d := by
    cases hid : d.id with
    | some id => simp [Pipe.rootHeader, hid]
    | none =>
      cases hname : d.name with
      | some name => simp [Pipe.rootHeader, hid, hname]
      | none => simp [hid, hname] at h
  rw [Pipe.build, Pipe.build, hheader]

/-- What is read from a text or from a value, and in no node of which an expression comes twice, is
written as a value that is read as the same definition, which is written and built as before. -/
theorem ofJson?_toJson {d : Definition} (hd : d.Decodes) (hu : d.Unrepeated) :
    ofJson? d.toJson = some d ∧ (ofJson? d.toJson).map toJson = some d.toJson ∧
      (d.id ≠ none ∨ d.name ≠ none → ∀ fresh other,
        (ofJson? d.toJson).map (Pipe.build fresh) = some (Pipe.build other d)) := by
  have hread : ofJson? d.toJson = some d :=
    restores_toJson hd.sound hu (Doc.ofJson d.toJson).depth (Nat.le_refl _)
  refine ⟨hread, by rw [hread, Option.map_some], fun hnamed fresh other => ?_⟩
  rw [hread, Option.map_some, build_fresh hnamed fresh other]

def routingJson : Json :=
  .arr [.str "root", .null, .arr [.arr [.str "pick", .null, .null, .null, .arr [], .null, .null,
    .null, .null, .obj [
      ("yes", .obj [("nodes", .arr [.obj [("name", .str "say"),
        ("prompts", .arr [.arr [.str "user", .null, .str "Hi"]]),
        ("output", .obj [("b", .int 1), ("a", .null)])]])]),
      ("default", .arr [.null, .str "rest", .arr [], .str "pick"])]]]]

def sayingNode : NodeDef Definition :=
  ⟨some "say", none, none, none, [⟨"user", none, "Hi"⟩], none, none, none, none, none, none,
    some (.obj [("b", .int 1), ("a", .null)])⟩

def pickingNode (cases : List (String × Definition)) : NodeDef Definition :=
  ⟨some "pick", none, none, none, [], none, none, none, none, some cases, none, none⟩

def routingDefinition : Definition :=
  ⟨some "root", none,
    [pickingNode [("yes", ⟨none, none, [sayingNode], none, none, none, none, none⟩),
      ("default", ⟨none, some "rest", [], some "pick", none, none, none, none⟩)]],
    none, none, none, none, none⟩

theorem unrepeated_of_no_cases {d : Definition} (h : ∀ n ∈ d.nodes, n.cases = none) :
    d.Unrepeated := by
  refine .mk (fun n hn cases hcases => ?_) ?_
  · rw [h n hn] at hcases
    cases hcases
  · rintro e ⟨n, hn, cases, hcases, -⟩
    rw [h n hn] at hcases
    cases hcases

theorem restored_routingDefinition :
    ofJson? routingJson = some routingDefinition ∧ routingDefinition.Unrepeated ∧
      ofJson? routingDefinition.toJson = some routingDefinition ∧
      ∀ fresh, (ofJson? routingDefinition.toJson).map (Pipe.build fresh) =
        some (Pipe.build "" routingDefinition) := by
  have hread : ofJson? routingJson = some routingDefinition := by rfl
  have hunrepeated : routingDefinition.Unrepeated := by
    refine .mk (fun n hn cases hcases => ?_) ?_
    · rw [List.eq_of_mem_singleton hn] at hcases
      cases hcases
      decide
    · rintro e ⟨n, hn, cases, hcases, expression, he⟩
      rw [List.eq_of_mem_singleton hn] at hcases
      cases hcases
      apply unrepeated_of_no_cases
      simp only [List.mem_cons, Prod.mk.injEq, List.not_mem_nil, or_false] at he
      rcases he with ⟨-, rfl⟩ | ⟨-, rfl⟩ <;> simp [sayingNode]
  obtain ⟨hback, -, hbuild⟩ := ofJson?_toJson (.inr ⟨routingJson, hread⟩) hunrepeated
  exact ⟨hread, hunrepeated, hback, fun fresh => hbuild (.inl (by simp [routingDefinition])) fresh ""⟩

end Definition

end Pipework
