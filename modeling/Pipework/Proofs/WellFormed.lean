import Pipework.Proofs.Keys

/-!
# What is built is well formed

A pipe that passes the checks is well formed at every depth. Its nodes know their places and go by
names of their own, so a name leads to one place and back. They are made of the written nodes one by
one. A case takes its id from where it stands, whatever its definition calls itself, and the
settings from above as far as they hold for it.
-/

namespace Pipework

namespace Pipe

def table (p : Pipe) : Keyed Nat := p.nodes.foldl (fun t n => Keyed.put t n.name n.index) []

structure Orderly (p : Pipe) : Prop where
  index : ∀ (i : Nat) (n : Node Pipe), p.nodes[i]? = some n → n.index = i
  named : ∀ n ∈ p.nodes, n.name ≠ ""
  distinct : (p.nodes.map (·.name)).Nodup
  indexOf : ∀ (name : String) (i : Nat), p.indexOf? name = some i ↔
    ∃ n, p.nodes[i]? = some n ∧ n.name = name
  table : ∀ name, Keyed.get? p.table name = p.indexOf? name
  node : ∀ name, p.node? name = (p.indexOf? name).bind fun i => p.nodes[i]?

inductive Does (n : NodeDef Definition) : NodeKind Pipe → Prop
  | process {spec : ProcessSpec} : n.process = some spec → Does n (.process spec.name spec.args)
  | request {payload : Json} : n.process = none → n.request = some payload →
      Does n (.request payload)
  | ai : n.process = none → n.request = none → n.prompts ≠ [] →
      Does n (.ai n.prompts (n.model.getD "") (n.options.getD .null))
  | userInput {text : String} {ui : UiKind} : n.process = none → n.request = none →
      n.prompts = [] → n.ui = some text → UiKind.ofName? text = some ui →
      Does n (.userInput ui n.autofill)
  | switch {written : List (String × Definition)} {cases : List (Case Pipe)} : n.process = none →
      n.request = none → n.prompts = [] → n.ui = none → n.cases = some written → cases ≠ [] →
      cases.map (·.expression) = written.map Prod.fst → Does n (.switch cases)

structure StandsFor (node : Node Pipe) (n : NodeDef Definition) : Prop where
  name : n.name = some node.name
  label : node.label = labelOf n.label node.name
  input : node.input = n.input
  output : node.output = n.output
  kind : Does n node.kind

structure Renders (p : Pipe) (d : Definition) : Prop where
  length : p.nodes.length = d.nodes.length
  node : ∀ (i : Nat) (node : Node Pipe), p.nodes[i]? = some node →
    ∃ n, d.nodes[i]? = some n ∧ StandsFor node n
  goto : p.goto = d.goto
  input : p.input = d.input
  output : p.output = d.output

structure IsCase (c q : Pipe) (node expression : String) (d : Definition) : Prop where
  id : c.id = q.id ++ "." ++ node ++ "#" ++ expression
  name : c.name = c.id
  scope : c.scope = some (q.id ++ "." ++ node)
  parent : c.parent = some q.id
  progress : c.progress = d.progress.or q.progress
  whitelist : c.whitelist = q.whitelist.or (d.whitelist.map .mk)

variable {h : Header}

theorem findIdx?_name_iff {nodes : List (Node Pipe)} (hd : (nodes.map (·.name)).Nodup)
    (name : String) (i : Nat) :
    nodes.findIdx? (fun n => n.name == name) = some i ↔
      ∃ n, nodes[i]? = some n ∧ n.name = name := by
  rw [List.findIdx?_eq_some_iff_getElem]
  constructor
  · rintro ⟨hi, hname, -⟩
    exact ⟨nodes[i], List.getElem?_eq_getElem hi, by simpa using hname⟩
  · rintro ⟨n, hn, rfl⟩
    obtain ⟨hi, rfl⟩ := List.getElem?_eq_some_iff.mp hn
    refine ⟨hi, by simp, fun j hj heq => ?_⟩
    have hjn : nodes[j]? = some nodes[j] := List.getElem?_eq_getElem (by omega)
    have hsame := index_eq_of_nodup hd hjn hn (by simpa using heq)
    omega

theorem get?_foldl_put {nodes : List (Node Pipe)} (hd : (nodes.map (·.name)).Nodup)
    (t : Keyed Nat) (name : String) :
    Keyed.get? (nodes.foldl (fun t n => Keyed.put t n.name n.index) t) name =
      ((nodes.find? fun n => n.name == name).map (·.index)).or (Keyed.get? t name) := by
  -- On the nodes; names are distinct, so the place of a node is not put over by a later one.
  induction nodes generalizing t with
  | nil => rfl
  | cons n ns ih =>
    obtain ⟨hn, hns⟩ := List.nodup_cons.mp hd
    rw [List.foldl_cons, ih hns, Keyed.get?_put]
    by_cases hname : n.name = name
    · subst hname
      have hnone : (ns.find? fun m => m.name == n.name) = none := by
        rw [List.find?_eq_none]
        intro m hm heq
        exact hn (List.mem_map.mpr ⟨m, hm, by simpa using heq⟩)
      simp [hnone]
    · simp [hname, Ne.symm hname]

theorem does_of_leafKind {name : String} {n : NodeDef Definition} {kind : NodeKind Pipe}
    (hk : leafKind h name n = some (.ok kind)) : Does n kind := by
  unfold leafKind at hk
  split at hk
  next spec hprocess =>
    split at hk
    · cases hk
    · split at hk
      · cases hk
        exact .process hprocess
      · cases hk
  next hprocess hrequest =>
    cases hk
    exact .request hprocess hrequest
  next p ps hprocess hrequest hprompts =>
    cases hk
    rw [← hprompts]
    exact .ai hprocess hrequest (by simp [hprompts])
  next ui hprocess hrequest hprompts hui =>
    split at hk
    next hkind =>
      cases hk
      exact .userInput hprocess hrequest hprompts hui hkind
    · cases hk
  · cases hk

theorem payloads_of_leafKind {π : Type} {name : String} {n : NodeDef π}
    (hk : leafKind h name n = none) :
    n.process = none ∧ n.request = none ∧ n.prompts = [] ∧ n.ui = none := by
  unfold leafKind at hk
  split at hk
  · split at hk
    · cases hk
    · split at hk <;> cases hk
  · cases hk
  · cases hk
  · split at hk <;> cases hk
  next hprocess hrequest hprompts hui => exact ⟨hprocess, hrequest, hprompts, hui⟩

theorem nodeOf_made {before : List String} {index : Nat} {n : NodeDef Definition}
    {node : Node Pipe} (hn : nodeOf h before index n = .ok node) :
    node.index = index ∧ node.name ≠ "" ∧ StandsFor node n := by
  obtain ⟨name, label, process, request, prompts, model, options, ui, autofill, cases, input,
    output⟩ := n
  unfold nodeOf at hn
  split at hn
  · cases hn
  · cases hn
  next name hempty =>
    have hname : name ≠ "" := fun heq => hempty (by rw [heq])
    split at hn
    · cases hn
    · dsimp only at hn
      split at hn
      · cases hn
      next kind hleaf =>
        cases hn
        exact ⟨rfl, hname, rfl, rfl, rfl, rfl, does_of_leafKind hleaf⟩
      next hleaf =>
        obtain ⟨hprocess, hrequest, hprompts, hui⟩ := payloads_of_leafKind hleaf
        split at hn
        · cases hn
        · cases hn
        next made hne hmade =>
          cases hn
          cases cases with
          | none =>
            cases hmade
            exact absurd rfl hne
          | some written =>
            exact ⟨rfl, hname, rfl, rfl, rfl, rfl, .switch hprocess hrequest hprompts hui rfl
              (fun heq => hne (by rw [heq])) (casesOf_expressions hmade)⟩

theorem nodesOf_made {before : List String} {index : Nat} {ns : List (NodeDef Definition)}
    {nodes : List (Node Pipe)} (hns : nodesOf h before index ns = .ok nodes) :
    nodes.length = ns.length ∧ ∀ (i : Nat) (node : Node Pipe), nodes[i]? = some node →
      node.index = index + i ∧ node.name ≠ "" ∧ ∃ n, ns[i]? = some n ∧ StandsFor node n := by
  -- On the written nodes, for all names that came before and every index to count from.
  induction ns generalizing before index nodes with
  | nil =>
    cases hns
    simp
  | cons n ns ih =>
    unfold nodesOf at hns
    split at hns
    · cases hns
    next first hfirst =>
      split at hns
      · cases hns
      next rest hrest =>
        cases hns
        obtain ⟨hlength, hall⟩ := ih hrest
        refine ⟨by rw [List.length_cons, List.length_cons, hlength], fun i node hi => ?_⟩
        cases i with
        | zero =>
          cases hi
          obtain ⟨hindex, hname, hstands⟩ := nodeOf_made hfirst
          exact ⟨hindex, hname, n, rfl, hstands⟩
        | succ i =>
          obtain ⟨hindex, hname, written, hwritten, hstands⟩ := hall i node hi
          exact ⟨by omega, hname, written, hwritten, hstands⟩

theorem orderly_of_pipeOf {d : Definition} {p : Pipe} (hp : pipeOf h d = .ok p) : p.Orderly := by
  obtain ⟨nodes, hnodes, rfl⟩ := pipeOf_ok hp
  obtain ⟨-, hall⟩ := nodesOf_made hnodes
  obtain ⟨hdistinct, -⟩ := nodup_nodesOf hnodes
  have hindex (i : Nat) (n : Node Pipe) (hn : nodes[i]? = some n) : n.index = i := by
    obtain ⟨hi, -⟩ := hall i n hn
    omega
  have hindexOf := findIdx?_name_iff hdistinct
  have hnode (name : String) : nodes.find? (fun n => n.name == name) =
      (nodes.findIdx? fun n => n.name == name).bind fun i => nodes[i]? :=
    List.find?_eq_bind_findIdx?_getElem?
  refine ⟨hindex, fun n hn => ?_, hdistinct, hindexOf, fun name => ?_, hnode⟩
  · obtain ⟨i, hi⟩ := List.mem_iff_getElem?.mp hn
    exact (hall i n hi).2.1
  · simp only [Pipe.table, indexOf?, get?_foldl_put hdistinct, hnode name, Keyed.get?_nil,
      Option.or_none]
    cases hi : nodes.findIdx? fun n => n.name == name with
    | none => rfl
    | some i =>
      obtain ⟨n, hn, -⟩ := (hindexOf name i).mp hi
      simp [hn, hindex i n hn]

theorem renders_of_pipeOf {d : Definition} {p : Pipe} (hp : pipeOf h d = .ok p) :
    p.Renders d := by
  obtain ⟨nodes, hnodes, rfl⟩ := pipeOf_ok hp
  obtain ⟨hlength, hall⟩ := nodesOf_made hnodes
  exact ⟨hlength, fun i node hi => (hall i node hi).2.2, rfl, rfl, rfl⟩

theorem isCase_of_pipeOf {d e : Definition} {q c : Pipe} (hq : pipeOf h d = .ok q)
    {node expression : String} (hc : pipeOf (h.forCase node expression e) e = .ok c) :
    c.IsCase q node expression e := by
  obtain ⟨_, -, rfl⟩ := pipeOf_ok hq
  obtain ⟨_, -, rfl⟩ := pipeOf_ok hc
  exact ⟨rfl, rfl, rfl, rfl, rfl, rfl⟩

end Pipe

/-- The cases of a node at a place are made, one by one and in order, of those that are written
there, and the way down goes on in each of them. -/
theorem Descent.isCase {fresh : String} {d : Definition} {p : Pipe} {l : Place}
    {path : List Place} (hl : Descent d p (l :: path)) (hb : Pipe.build fresh d = .ok p) {i : Nat}
    {node : Node Pipe} (hi : l.pipe.nodes[i]? = some node) {cases : List (Case Pipe)}
    (hk : node.kind = .switch cases) :
    ∃ n written, l.written.nodes[i]? = some n ∧ n.cases = some written ∧
      cases.length = written.length ∧ ∀ (j : Nat) (c : Case Pipe), cases[j]? = some c → ∃ e,
        written[j]? = some (c.expression, e) ∧ Descent d p (⟨e, c.pipe⟩ :: l :: path) ∧
        c.pipe.IsCase l.pipe node.name c.expression e := by
  obtain ⟨header, hpipe, -⟩ := hl.built hb
  obtain ⟨n, hn, -, -, hmakes⟩ := Pipe.node_of_pipeOf hpipe hi
  rw [hk] at hmakes
  cases hmakes with
  | @switch written _ hwritten hcases =>
    have hlength := congrArg List.length (Pipe.casesOf_expressions hcases)
    rw [List.length_map, List.length_map] at hlength
    refine ⟨n, written, hn, hwritten, hlength, fun j c hc => ?_⟩
    obtain ⟨e, he, hcase⟩ := Pipe.casesOf_ok hcases hc
    exact ⟨e, he, .enter hl hn hwritten he hi hk hc, Pipe.isCase_of_pipeOf hpipe hcase⟩

/-- If a definition passes the checks, the pipe has nodes, and it is well formed at every depth: its
names and places agree, its nodes are made of the written ones one by one, and its cases, in the
order in which they are written, are named for where they stand. -/
theorem Pipe.wellFormed_of_build {fresh : String} {d : Definition} {p : Pipe}
    (hb : Pipe.build fresh d = .ok p) :
    p.nodes ≠ [] ∧ (∀ q, p.Inner q → ∃ l path, Descent d p (l :: path) ∧ l.pipe = q) ∧
    ∀ l path, Descent d p (l :: path) → l.pipe.Orderly ∧ l.pipe.Renders l.written ∧
      ∀ (i : Nat) (node : Node Pipe) (cases : List (Case Pipe)), l.pipe.nodes[i]? = some node →
        node.kind = .switch cases → cases ≠ [] ∧
        ∃ n written, l.written.nodes[i]? = some n ∧ n.cases = some written ∧
          cases.length = written.length ∧ ∀ (j : Nat) (c : Case Pipe), cases[j]? = some c → ∃ e,
            written[j]? = some (c.expression, e) ∧ Descent d p (⟨e, c.pipe⟩ :: l :: path) ∧
            c.pipe.IsCase l.pipe node.name c.expression e := by
  refine ⟨fun hnone => ?_, fun q hq => hq.descent hb, fun l path hl => ?_⟩
  · have hlength := (renders_of_pipeOf (pipeOf_of_build hb)).length
    have hempty : d.nodes = [] := List.length_eq_zero_iff.mp (by rw [← hlength, hnone]; rfl)
    simp [build, hempty] at hb
  · obtain ⟨header, hpipe, -⟩ := hl.built hb
    have hrenders := renders_of_pipeOf hpipe
    refine ⟨orderly_of_pipeOf hpipe, hrenders, fun i node cases hi hk => ⟨?_, hl.isCase hb hi hk⟩⟩
    obtain ⟨n, -, hstands⟩ := hrenders.node i node hi
    have hkind := hstands.kind
    rw [hk] at hkind
    cases hkind with
    | switch _ _ _ _ _ hne _ => exact hne

def Pipe.caseAt? (p : Pipe) (i j : Nat) : Option Pipe :=
  match p.nodes[i]? with
  | some ⟨_, _, _, .switch cases, _, _⟩ => cases[j]?.map (·.pipe)
  | _ => none

theorem Pipe.caseAt?_eq_some {p q : Pipe} {i j : Nat} (h : p.caseAt? i j = some q) :
    ∃ node cases c, p.nodes[i]? = some node ∧ node.kind = .switch cases ∧
      cases[j]? = some c ∧ c.pipe = q := by
  unfold caseAt? at h
  split at h
  next cases _ _ hi =>
    obtain ⟨c, hc, hq⟩ := Option.map_eq_some_iff.mp h
    exact ⟨_, cases, c, hi, rfl, hc, hq⟩
  · cases h

def innermostCase : Definition :=
  ⟨some "own", none, [{ plainNode "say" with process := some ⟨"tell", .null⟩ }], none, none, none,
    some ["*"], some "near"⟩

def middleCase : Definition :=
  ⟨some "own", some "own", [{ plainNode "again" with cases := some [("default", innermostCase)] }],
    none, none, none, some ["tell"], none⟩

def routingCase : Definition := ⟨none, none, [], some "first", none, none, none, none⟩

def nestedDefinition : Definition :=
  ⟨some "root", some "main",
    [{ plainNode "first" with process := some ⟨"tell", .null⟩ },
      { plainNode "pick" with cases := some [("no", routingCase), ("yes", middleCase)] }],
    none, none, none, none, some "far"⟩

theorem wellFormed_nestedDefinition :
    Pipe.build "" nestedDefinition = .ok nestedDefinition.built ∧
      ∃ l m path node expression, Descent nestedDefinition nestedDefinition.built (l :: m :: path) ∧
        path.length = 1 ∧ l.pipe.Orderly ∧ l.pipe.Renders l.written ∧
        l.pipe.IsCase m.pipe node expression l.written ∧
        l.pipe.id = "root.pick#yes.again#default" := by
  have hb := Definition.build_built (d := nestedDefinition) (by decide +kernel)
  have hid : ((nestedDefinition.built.caseAt? 1 1).bind (·.caseAt? 0 0)).map (·.id) =
      some "root.pick#yes.again#default" := by decide +kernel
  obtain ⟨inner, hinner, hid⟩ := Option.map_eq_some_iff.mp hid
  obtain ⟨middle, hmiddle, hinner⟩ := Option.bind_eq_some_iff.mp hinner
  obtain ⟨node, cases, c, hn, hk, hc, rfl⟩ := Pipe.caseAt?_eq_some hmiddle
  obtain ⟨node', cases', c', hn', hk', hc', rfl⟩ := Pipe.caseAt?_eq_some hinner
  obtain ⟨-, -, hall⟩ := Pipe.wellFormed_of_build hb
  obtain ⟨-, -, hroot⟩ := hall _ _ .root
  obtain ⟨-, _, _, -, -, -, hcases⟩ := hroot 1 node cases hn hk
  obtain ⟨e, -, hdescent, -⟩ := hcases 1 c hc
  obtain ⟨-, -, hbelow⟩ := hall _ _ hdescent
  obtain ⟨-, _, _, -, -, -, hcases'⟩ := hbelow 0 node' cases' hn' hk'
  obtain ⟨e', -, hdescent', hcase⟩ := hcases' 0 c' hc'
  obtain ⟨horderly, hrenders, -⟩ := hall _ _ hdescent'
  exact ⟨hb, _, _, _, _, _, hdescent', rfl, horderly, hrenders, hcase, hid⟩

end Pipework
