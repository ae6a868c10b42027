import Pipework.Proofs.Violations

/-!
# The first violation is reported

The checks go through a definition in the order of the text. They stop at the first violation, and do
not look at the payloads behind those that decide what the nodes do.
-/

namespace Pipework

theorem UiKind.ofName?_eq_some {kind : String} :
    (∃ k, UiKind.ofName? kind = some k) ↔ kind ∈ ["cli", "web", "form", "chat"] := by
  rw [← Option.isSome_iff_exists, UiKind.ofName?, List.find?_isSome]
  simp [UiKind.name, eq_comm (a := kind)]

namespace Pipe

variable {h : Header}

def kindOf (h : Header) (name : String) (n : NodeDef Definition) :
    Payload → Except BuildError (NodeKind Pipe)
  | .process spec =>
    if spec.name = "" then .error (.missingProcessName h.id name)
    else if Whitelist.permits h.whitelist spec.name then .ok (.process spec.name spec.args)
    else .error (.processNotAllowed h.id name spec.name)
  | .request payload => .ok (.request payload)
  | .prompts prompts => .ok (.ai prompts (n.model.getD "") (n.options.getD .null))
  | .ui kind => match UiKind.ofName? kind with
    | some kind => .ok (.userInput kind n.autofill)
    | none => .error (.invalidUiKind h.id name kind)
  | .cases written => (casesOf h name written).map .switch

theorem pipeOf_eq (d : Definition) : pipeOf h d = (nodesOf h [] 0 d.nodes).map fun nodes =>
    ⟨h.id, h.name, nodes, h.whitelist, d.goto, d.input, d.output, h.progress, h.scope, h.parent⟩ := by
  obtain ⟨_, _, nodes, _, _, _, _, _⟩ := d
  rw [pipeOf]
  cases nodesOf h [] 0 nodes <;> rfl

theorem nodesOf_cons (before : List String) (index : Nat) (n : NodeDef Definition)
    (ns : List (NodeDef Definition)) : nodesOf h before index (n :: ns) =
      (nodeOf h before index n).bind fun node =>
        (nodesOf h (node.name :: before) (index + 1) ns).map (node :: ·) := by
  rw [nodesOf]
  cases nodeOf h before index n with
  | error => rfl
  | ok node =>
    dsimp only [Except.bind]
    cases nodesOf h (node.name :: before) (index + 1) ns <;> rfl

theorem casesOf_cons (node expression : String) (d : Definition)
    (cases : List (String × Definition)) : casesOf h node ((expression, d) :: cases) =
      (pipeOf (h.forCase node expression d) d).bind fun pipe =>
        (casesOf h node cases).map (⟨expression, pipe⟩ :: ·) := by
  rw [casesOf]
  cases pipeOf (h.forCase node expression d) d with
  | error => rfl
  | ok pipe =>
    dsimp only [Except.bind]
    cases casesOf h node cases <;> rfl

/-- The checks of a node: its name, the names before it, and the payload that decides its type. -/
theorem nodeOf_eq (before : List String) (index : Nat) (n : NodeDef Definition) :
    nodeOf h before index n =
      let name := n.name.getD ""
      if name = "" then .error (.missingNodeName h.id index)
      else if name ∈ before then .error (.duplicateNodeName h.id name)
      else match n.payload? with
        | none => .error (.unknownNodeType h.id name)
        | some p => (kindOf h name n p).map fun kind =>
          ⟨name, labelOf n.label name, index, kind, n.input, n.output⟩ := by
  obtain ⟨name, label, process, request, prompts, model, options, ui, autofill, cases, input,
    output⟩ := n
  unfold nodeOf
  split
  · rfl
  · rfl
  next name hname =>
  have hempty : name ≠ "" := fun heq => hname (heq ▸ rfl)
  dsimp only [Option.getD_some]
  rw [if_neg hempty]
  by_cases hmem : name ∈ before
  · rw [if_pos (List.contains_iff_mem.mpr hmem), if_pos hmem]
  rw [if_neg (fun hc => hmem (List.contains_iff_mem.mp hc)), if_neg hmem]
  -- On what is there, in the order of priority.
  cases process with
  | some spec =>
    simp only [leafKind, NodeDef.payload?, List.findSome?, Option.map_some, id_eq, kindOf]
    by_cases hspec : spec.name = ""
    · rw [if_pos hspec, if_pos hspec]
      rfl
    rw [if_neg hspec, if_neg hspec]
    cases Whitelist.permits h.whitelist spec.name <;> rfl
  | none =>
  cases request with
  | some payload => rfl
  | none =>
  cases prompts with
  | cons => rfl
  | nil =>
  cases ui with
  | some kind =>
    have hp : NodeDef.payload? ⟨some name, label, none, none, [], model, options, some kind,
      autofill, cases, input, output⟩ = some (.ui kind) := rfl
    simp only [hp, leafKind, kindOf]
    cases UiKind.ofName? kind <;> rfl
  | none =>
  cases cases with
  | none => rfl
  | some written =>
    cases written with
    | nil => rfl
    | cons c written =>
      have hp : NodeDef.payload? ⟨some name, label, none, none, [], model, options, none,
        autofill, some (c :: written), input, output⟩ = some (.cases (c :: written)) := rfl
      simp only [hp, leafKind, kindOf, casesIn]
      cases hcases : casesOf h name (c :: written) with
      | error => rfl
      | ok made =>
        cases made with
        | nil => cases casesOf_expressions hcases
        | cons => rfl

section Checks

variable {declared : List (Option (List String))} {d : Definition} {i : Nat} {n : NodeDef Definition}
  {name : String}

def ReportsFirst (d : Definition) : Prop := ∀ (h : Header) (declared : List (Option (List String))),
  h.whitelist = effectiveWhitelist declared → Reports (Violation h.id declared d) (pipeOf h d)

theorem casesOf_reports (name : String) (hwhitelist : h.whitelist = effectiveWhitelist declared)
    {written : List (String × Definition)} (front rest : List (String × Definition))
    (hwritten : written = front ++ rest) (hbelow : ∀ expression e, (expression, e) ∈ written → ReportsFirst e) :
    Reports (Since front.length (CaseViolation h.id name declared written))
      (casesOf h name rest) := by
  -- On the cases that are left.
  induction rest generalizing front with
  | nil =>
    rintro _ e ⟨⟨j, rest, expression, below, rfl, hj, -⟩, _, _, ⟨⟩, hle⟩
    obtain ⟨hlt, -⟩ := List.getElem?_eq_some_iff.mp hj
    rw [hwritten, List.append_nil] at hlt
    omega
  | cons first rest ih =>
    obtain ⟨expression, below⟩ := first
    have hj : written[front.length]? = some (expression, below) := by simp [hwritten]
    rw [casesOf_cons]
    refine Reports.bind ?_ fun pipe hpipe => Reports.map ?_ _
    · have hchild := hbelow expression below (List.mem_of_getElem? hj)
        (h.forCase name expression below) (declared ++ [below.whitelist]) (by
          rw [effectiveWhitelist_append, ← hwhitelist]
          rfl)
      refine hchild.congr fun position e => ?_
      constructor
      · rintro ⟨j, rest', expression', below', ⟨⟩, hj', hv⟩
        cases hj.symm.trans hj'
        exact hv
      · exact fun hv => ⟨_, _, _, _, rfl, hj, hv⟩
    · have hnext := ih (front ++ [(expression, below)]) (by simp [hwritten])
      rwa [List.length_append] at hnext

theorem kindOf_reports (hn : d.nodes[i]? = some n) (hname : n.name = some name)
    (hwhitelist : h.whitelist = effectiveWhitelist declared)
    (htwo : ∀ k e, Fault h.id declared d i n k e → k = 2)
    (hbelow : ∀ e, d.HasCase e → ReportsFirst e) {p : Payload} (hp : n.payload? = some p) :
    Reports (fun rest e => Violation h.id declared d (i :: rest) e) (kindOf h name n p) := by
  have hleast (k : Nat) (e : BuildError) (hf : Fault h.id declared d i n k e) : 2 ≤ k :=
    Nat.le_of_eq (htwo k e hf).symm
  cases p with
  | process spec =>
    dsimp only [kindOf]
    by_cases hspec : spec.name = ""
    · rw [if_pos hspec]
      exact Fault.first hn (.unnamedProcess hname hp hspec) hleast
    rw [if_neg hspec]
    cases hpermits : Whitelist.permits h.whitelist spec.name with
    | true => exact no_violation hn htwo hp ⟨hspec, hwhitelist ▸ hpermits⟩ nofun
    | false => exact Fault.first hn (.forbidden hname hp hspec (hwhitelist ▸ hpermits)) hleast
  | request | prompts => exact no_violation hn htwo hp trivial nofun
  | ui kind =>
    dsimp only [kindOf]
    cases hkind : UiKind.ofName? kind with
    | some k => exact no_violation hn htwo hp (UiKind.ofName?_eq_some.mp ⟨k, hkind⟩) nofun
    | none =>
      refine Fault.first hn (.strange hname hp fun hmem => ?_) hleast
      obtain ⟨k, hk⟩ := UiKind.ofName?_eq_some.mpr hmem
      cases hkind.symm.trans hk
  | cases written =>
    have hcases := casesOf_reports name hwhitelist [] written rfl
      fun expression e he => hbelow e ⟨n, List.mem_of_getElem? hn, written,
        n.cases_of_payload? hp, expression, he⟩
    refine (Reports.under (k := 2) hcases fun rest e => ⟨fun hv => ?_, ?_⟩).map _
    · obtain ⟨k, rfl, hf⟩ | ⟨written', j, position, name', expression, below, hname', hp', hj, rfl, hv⟩
        := hv.at hn
      · cases htwo k e hf
        exact absurd trivial (hf.not_valid hp)
      · cases hname.symm.trans hname'
        cases hp.symm.trans hp'
        exact ⟨_, rfl, ⟨j, position, expression, below, rfl, hj, hv⟩, j, position, rfl, Nat.zero_le j⟩
    · rintro ⟨_, rfl, ⟨j, position, expression, below, rfl, hj, hv⟩, -⟩
      exact .inside hn hname hp hj hv

theorem nodeOf_reports (hn : d.nodes[i]? = some n)
    (hwhitelist : h.whitelist = effectiveWhitelist declared) {before : List String}
    (hbefore : ∀ name, name ∈ before ↔ ∃ j m, j < i ∧ d.nodes[j]? = some m ∧ m.name = some name)
    (hbelow : ∀ e, d.HasCase e → ReportsFirst e) :
    Reports (fun rest e => Violation h.id declared d (i :: rest) e) (nodeOf h before i n) := by
  rw [nodeOf_eq]
  by_cases hempty : n.name.getD "" = ""
  · simp only [hempty, if_true]
    exact Fault.first hn (.unnamed hempty) fun k e _ => Nat.zero_le k
  obtain ⟨name, hname⟩ : ∃ name, n.name = some name := by
    cases hname : n.name with
    | none => exact absurd (by rw [hname]; rfl) hempty
    | some name => exact ⟨name, rfl⟩
  simp only [hname, Option.getD_some] at hempty ⊢
  rw [if_neg hempty]
  by_cases hmem : name ∈ before
  · rw [if_pos hmem]
    obtain ⟨j, m, hj, hm, hsame⟩ := (hbefore name).mp hmem
    refine Fault.first hn (.repeated hname hj hm hsame) fun k e hf => ?_
    cases hf with
    | unnamed hnone => exact absurd (by simpa [hname] using hnone) hempty
    | repeated | unnamedProcess | forbidden | strange | untyped => decide
  rw [if_neg hmem]
  have htwo (k : Nat) (e : BuildError) (hf : Fault h.id declared d i n k e) : k = 2 :=
    hf.eq_two hname hempty fun j m hj hm hsame => hmem ((hbefore name).mpr ⟨j, m, hj, hm, hsame⟩)
  cases hp : n.payload? with
  | none => exact Fault.first hn (.untyped hname hp) fun k e hf => Nat.le_of_eq (htwo k e hf).symm
  | some p => exact (kindOf_reports hn hname hwhitelist htwo hbelow hp).map _

theorem nodesOf_reports (hwhitelist : h.whitelist = effectiveWhitelist declared)
    (hbelow : ∀ e, d.HasCase e → ReportsFirst e) (before : List String)
    (front ns : List (NodeDef Definition)) (hnodes : d.nodes = front ++ ns)
    (hbefore : ∀ name, name ∈ before ↔ ∃ m ∈ front, m.name = some name) :
    Reports (Since front.length (Violation h.id declared d)) (nodesOf h before front.length ns) := by
  -- On the nodes that are left.
  induction ns generalizing front before with
  | nil =>
    rintro _ e ⟨hv, i, rest, rfl, hle⟩
    have hend : d.nodes[i]? = none := by
      rw [hnodes, List.append_nil]
      exact List.getElem?_eq_none hle
    cases hv with
    | here hn => cases hend.symm.trans hn
    | inside hn => cases hend.symm.trans hn
  | cons n ns ih =>
    have hn : d.nodes[front.length]? = some n := by simp [hnodes]
    rw [nodesOf_cons]
    refine Reports.bind (nodeOf_reports hn hwhitelist ?_ hbelow) fun node hnode => Reports.map ?_ _
    · intro name
      rw [hbefore]
      constructor
      · rintro ⟨m, hm, hsame⟩
        obtain ⟨j, hj⟩ := List.mem_iff_getElem?.mp hm
        obtain ⟨hlt, -⟩ := List.getElem?_eq_some_iff.mp hj
        exact ⟨j, m, hlt, by rw [hnodes, List.getElem?_append_left hlt, hj], hsame⟩
      · rintro ⟨j, m, hlt, hj, hsame⟩
        rw [hnodes, List.getElem?_append_left hlt] at hj
        exact ⟨m, List.mem_of_getElem? hj, hsame⟩
    · obtain ⟨hname, -⟩ := nodeOf_name hnode
      have hnext := ih (node.name :: before) (front ++ [n]) (by simp [hnodes]) (by
        intro name
        simp [hbefore, hname, or_and_right, exists_or, or_comm, eq_comm])
      rwa [List.length_append] at hnext

theorem reportsFirst (d : Definition) : ReportsFirst d := by
  induction d using Definition.rec_cases with
  | step d hbelow =>
    intro h declared hwhitelist
    rw [pipeOf_eq]
    have hall := nodesOf_reports hwhitelist hbelow [] [] d.nodes rfl (by simp)
    refine (hall.congr fun position e => ⟨fun hv => ⟨hv, ?_⟩, And.left⟩).map _
    cases hv with
    | here => exact ⟨_, _, rfl, Nat.zero_le _⟩
    | inside => exact ⟨_, _, rfl, Nat.zero_le _⟩

end Checks

theorem build_reports (fresh : String) (d : Definition) :
    Reports (RootViolation fresh d) (build fresh d) := by
  unfold build
  dsimp only
  by_cases hnodes : d.nodes = []
  · rw [if_pos (by simp [hnodes])]
    refine ⟨[], .empty hnodes, fun position e hv => ?_⟩
    cases hv with
    | empty => exact .inl ⟨rfl, rfl⟩
    | inside hv => cases hv <;> exact .inr List.Lex.nil
  · rw [if_neg (by simpa using hnodes)]
    have hwhitelist : (rootHeader fresh d).whitelist = effectiveWhitelist [d.whitelist] :=
      (effectiveWhitelist_append [] d.whitelist).symm
    refine (reportsFirst d (rootHeader fresh d) [d.whitelist] hwhitelist).congr fun position e => ?_
    exact ⟨fun hv => by cases hv with | empty h => exact absurd h hnodes | inside hv => exact hv, .inside⟩

end Pipe

namespace Definition

mutual
def trimmed : Definition → Definition
  | ⟨id, name, nodes, goto, input, output, whitelist, progress⟩ =>
    ⟨id, name, trimmedNodes nodes, goto, input, output, whitelist, progress⟩
termination_by structural d => d

def trimmedNodes : List (NodeDef Definition) → List (NodeDef Definition)
  | [] => []
  | n :: ns => trimmedNode n :: trimmedNodes ns
termination_by structural ns => ns

def trimmedNode : NodeDef Definition → NodeDef Definition
  | ⟨name, label, process, request, prompts, model, options, ui, autofill, cases, input, output⟩ =>
    ⟨name, label, process,
      if process.isSome then none else request,
      if process.isSome || request.isSome then [] else prompts, model, options,
      if process.isSome || request.isSome || !prompts.isEmpty then none else ui, autofill,
      if process.isSome || request.isSome || !prompts.isEmpty || ui.isSome then none
      else trimmedSome cases, input, output⟩
termination_by structural n => n

def trimmedSome : Option (List (String × Definition)) → Option (List (String × Definition))
  | none => none
  | some cases => some (trimmedCases cases)
termination_by structural cs => cs

def trimmedCases : List (String × Definition) → List (String × Definition)
  | [] => []
  | (expression, d) :: cases => (expression, trimmed d) :: trimmedCases cases
termination_by structural cs => cs
end

def trimmedPayload : Payload → Payload
  | .cases written => .cases (trimmedCases written)
  | p => p

theorem payload?_trimmedNode (n : NodeDef Definition) :
    (trimmedNode n).payload? = n.payload?.map trimmedPayload := by
  obtain ⟨name, label, process, request, prompts, model, options, ui, autofill, cases, input,
    output⟩ := n
  cases process with
  | some => rfl
  | none =>
  cases request with
  | some => rfl
  | none =>
  cases prompts with
  | cons => rfl
  | nil =>
  cases ui with
  | some => rfl
  | none =>
  cases cases with
  | none => rfl
  | some written => cases written <;> rfl

end Definition

namespace Pipe

variable {h : Header}

theorem forCase_trimmed (node expression : String) (d : Definition) :
    h.forCase node expression d.trimmed = h.forCase node expression d := by
  cases d
  rfl

theorem casesOf_trimmed {name : String} {written : List (String × Definition)}
    (hbelow : ∀ expression e, (expression, e) ∈ written →
      ∀ h : Header, pipeOf h e.trimmed = pipeOf h e) :
    casesOf h name (Definition.trimmedCases written) = casesOf h name written := by
  induction written with
  | nil => rfl
  | cons first written ih =>
    obtain ⟨expression, d⟩ := first
    rw [Definition.trimmedCases, casesOf_cons, casesOf_cons, forCase_trimmed,
      hbelow expression d List.mem_cons_self,
      ih fun expression e he => hbelow expression e (List.mem_cons_of_mem _ he)]

theorem nodeOf_trimmed {n : NodeDef Definition} (before : List String) (index : Nat)
    (hbelow : ∀ written, n.cases = some written → ∀ name,
      casesOf h name (Definition.trimmedCases written) = casesOf h name written) :
    nodeOf h before index (Definition.trimmedNode n) = nodeOf h before index n := by
  rw [nodeOf_eq, nodeOf_eq, Definition.payload?_trimmedNode]
  cases hp : n.payload? with
  | none =>
    cases n
    rfl
  | some p =>
    cases p with
    | cases written =>
      have hcases := hbelow written (n.cases_of_payload? hp)
      cases n
      simp only [Option.map_some, Definition.trimmedPayload, kindOf, hcases]
      rfl
    | process | request | prompts | ui =>
      cases n
      rfl

theorem pipeOf_trimmed (d : Definition) (h : Header) : pipeOf h d.trimmed = pipeOf h d := by
  induction d using Definition.rec_cases generalizing h with
  | step d ih =>
    have hnodes (ns : List (NodeDef Definition)) (hns : ∀ n ∈ ns, n ∈ d.nodes)
        (before : List String) (index : Nat) :
        nodesOf h before index (Definition.trimmedNodes ns) = nodesOf h before index ns := by
      induction ns generalizing before index with
      | nil => rfl
      | cons n ns ihns =>
        have hnode : nodeOf h before index (Definition.trimmedNode n) = nodeOf h before index n :=
          nodeOf_trimmed before index fun written hwritten name =>
            casesOf_trimmed fun expression e he =>
              ih e ⟨n, hns n List.mem_cons_self, written, hwritten, expression, he⟩
        simp only [Definition.trimmedNodes, nodesOf_cons, hnode,
          ihns fun m hm => hns m (List.mem_cons_of_mem _ hm)]
    have hpipe := hnodes d.nodes (fun _ hn => hn) [] 0
    rw [pipeOf_eq, pipeOf_eq]
    cases d
    exact congrArg (Except.map _) hpipe

theorem build_trimmed (fresh : String) (d : Definition) : build fresh d.trimmed = build fresh d := by
  have hpipe := pipeOf_trimmed d
  obtain ⟨id, name, nodes, goto, input, output, whitelist, progress⟩ := d
  cases nodes with
  | nil => rfl
  | cons => exact hpipe _

/-- What passes is valid, and of what does not pass the first violation is reported. Only the payloads
that decide the types of the nodes are looked at. -/
theorem build_valid_or_first (fresh : String) (d : Definition) :
    ((∃ p, build fresh d = .ok p) ↔ d.nodes ≠ [] ∧ d.Valid [d.whitelist]) ∧
    (∀ e, build fresh d = .error e ↔ First (RootViolation fresh d) e) ∧
    build fresh d.trimmed = build fresh d := by
  have hreports := build_reports fresh d
  refine ⟨?_, fun e => ?_, build_trimmed fresh d⟩
  · rw [← Definition.no_rootViolation_iff fresh]
    cases hb : build fresh d with
    | ok p =>
      rw [hb] at hreports
      exact ⟨fun _ => hreports, fun _ => ⟨p, rfl⟩⟩
    | error e =>
      rw [hb] at hreports
      obtain ⟨position, hv, -⟩ := hreports
      exact ⟨nofun, fun hnone => absurd hv (hnone position e)⟩
  · cases hb : build fresh d with
    | ok p =>
      rw [hb] at hreports
      refine ⟨nofun, ?_⟩
      rintro ⟨position, hv, -⟩
      exact absurd hv (hreports position e)
    | error e' =>
      rw [hb] at hreports
      exact ⟨fun heq => Except.error.inj heq ▸ hreports, fun h => congrArg _ (hreports.unique h)⟩

end Pipe

end Pipework
