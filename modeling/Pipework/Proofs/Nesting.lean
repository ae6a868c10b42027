import Pipework.Pipe.Build

/-!
# Pipes inside pipes

The cases of a definition are definitions again. `Descent` goes down from a definition to one of its
cases, to a case of that, and so on, and goes the same way down the pipe that was built of it. Each
pipe on the way is then what was built of the definition beside it, under the header that the
definitions above have left.
-/

namespace Pipework

def Node.HasCase (n : Node Pipe) (q : Pipe) : Prop :=
  ∃ cases c, n.kind = .switch cases ∧ c ∈ cases ∧ c.pipe = q

namespace Definition

def HasCase (d e : Definition) : Prop :=
  ∃ n ∈ d.nodes, ∃ cases, n.cases = some cases ∧ ∃ expression, (expression, e) ∈ cases

mutual
def within (level : Nat) : Definition → List (Nat × Definition)
  | d@⟨_, _, nodes, _, _, _, _, _⟩ => (level, d) :: withinNodes (level + 1) nodes
termination_by structural d => d

def withinNodes (level : Nat) : List (NodeDef Definition) → List (Nat × Definition)
  | [] => []
  | n :: ns => withinNode level n ++ withinNodes level ns
termination_by structural ns => ns

def withinNode (level : Nat) : NodeDef Definition → List (Nat × Definition)
  | ⟨_, _, _, _, _, _, _, _, _, cases, _, _⟩ => withinSome level cases
termination_by structural n => n

def withinSome (level : Nat) : Option (List (String × Definition)) → List (Nat × Definition)
  | none => []
  | some cases => withinCases level cases
termination_by structural cs => cs

def withinCases (level : Nat) : List (String × Definition) → List (Nat × Definition)
  | [] => []
  | (_, d) :: cases => within level d ++ withinCases level cases
termination_by structural cs => cs
end

def depth (d : Definition) : Nat := (d.within 1).foldr (fun x m => max x.1 m) 0

theorem within_eq (d : Definition) (level : Nat) :
    d.within level = (level, d) :: withinNodes (level + 1) d.nodes := by
  cases d
  rfl

theorem within_subset_cases {level : Nat} {expression : String} {e : Definition}
    {cases : List (String × Definition)} (h : (expression, e) ∈ cases) :
    e.within level ⊆ withinCases level cases := by
  induction cases with
  | nil => cases h
  | cons c cases ih =>
    obtain ⟨first, d⟩ := c
    rw [withinCases]
    rcases List.mem_cons.mp h with heq | hmem
    · cases heq
      exact List.subset_append_left ..
    · exact List.Subset.trans (ih hmem) (List.subset_append_right ..)

theorem within_subset_nodes {level : Nat} {n : NodeDef Definition} {ns : List (NodeDef Definition)}
    (h : n ∈ ns) : withinNode level n ⊆ withinNodes level ns := by
  induction ns with
  | nil => cases h
  | cons first ns ih =>
    rw [withinNodes]
    rcases List.mem_cons.mp h with rfl | hmem
    · exact List.subset_append_left ..
    · exact List.Subset.trans (ih hmem) (List.subset_append_right ..)

theorem HasCase.within_subset {d e : Definition} (h : d.HasCase e) (level : Nat) :
    e.within (level + 1) ⊆ d.within level := by
  obtain ⟨n, hn, cases, hcases, expression, hmem⟩ := h
  have hcase : e.within (level + 1) ⊆ withinCases (level + 1) cases := within_subset_cases hmem
  have hnode : withinNode (level + 1) n = withinCases (level + 1) cases := by
    obtain ⟨_, _, _, _, _, _, _, _, _, _, _, _⟩ := n
    dsimp only at hcases
    rw [hcases, withinNode, withinSome]
  have hnodes : withinNode (level + 1) n ⊆ withinNodes (level + 1) d.nodes := within_subset_nodes hn
  rw [d.within_eq level]
  exact List.Subset.trans (List.Subset.trans hcase (hnode ▸ hnodes)) (List.subset_cons_self ..)

theorem le_depth {d e : Definition} {level : Nat} (h : (level, e) ∈ d.within 1) :
    level ≤ d.depth := by
  unfold depth
  generalize d.within 1 = all at h ⊢
  induction all with
  | nil => cases h
  | cons x xs ih =>
    rw [List.foldr_cons]
    rcases List.mem_cons.mp h with rfl | hmem
    · exact Nat.le_max_left ..
    · exact Nat.le_trans (ih hmem) (Nat.le_max_right ..)

end Definition

namespace Pipe

variable {h : Header}

theorem pipeOf_ok {d : Definition} {p : Pipe} (hp : pipeOf h d = .ok p) :
    ∃ nodes, nodesOf h [] 0 d.nodes = .ok nodes ∧
      p = ⟨h.id, h.name, nodes, h.whitelist, d.goto, d.input, d.output, h.progress, h.scope,
        h.parent⟩ := by
  obtain ⟨_, _, written, _, _, _, _, _⟩ := d
  unfold pipeOf at hp
  split at hp
  · cases hp
  next nodes hn =>
    cases hp
    exact ⟨nodes, hn, rfl⟩

theorem nodesOf_ok {before : List String} {index : Nat} {ns : List (NodeDef Definition)}
    {nodes : List (Node Pipe)} (hns : nodesOf h before index ns = .ok nodes) {i : Nat}
    {node : Node Pipe} (hi : nodes[i]? = some node) :
    ∃ n before index, ns[i]? = some n ∧ nodeOf h before index n = .ok node := by
  induction ns generalizing before index nodes i with
  | nil =>
    cases hns
    cases hi
  | cons n ns ih =>
    unfold nodesOf at hns
    split at hns
    · cases hns
    next first hfirst =>
      split at hns
      · cases hns
      next rest hrest =>
        cases hns
        cases i with
        | zero =>
          cases hi
          exact ⟨n, before, index, rfl, hfirst⟩
        | succ i => exact ih hrest hi

theorem casesOf_ok {node : String} {written : List (String × Definition)} {cases : List (Case Pipe)}
    (hcs : casesOf h node written = .ok cases) {j : Nat} {c : Case Pipe}
    (hj : cases[j]? = some c) :
    ∃ d, written[j]? = some (c.expression, d) ∧
      pipeOf (h.forCase node c.expression d) d = .ok c.pipe := by
  induction written generalizing cases j with
  | nil =>
    cases hcs
    cases hj
  | cons first written ih =>
    obtain ⟨expression, d⟩ := first
    unfold casesOf at hcs
    split at hcs
    · cases hcs
    next pipe hpipe =>
      split at hcs
      · cases hcs
      next rest hrest =>
        cases hcs
        cases j with
        | zero =>
          cases hj
          exact ⟨d, rfl, hpipe⟩
        | succ j => exact ih hrest hj

theorem casesOf_expressions {node : String} {written : List (String × Definition)}
    {cases : List (Case Pipe)} (hcs : casesOf h node written = .ok cases) :
    cases.map (·.expression) = written.map Prod.fst := by
  induction written generalizing cases with
  | nil =>
    cases hcs
    rfl
  | cons first written ih =>
    unfold casesOf at hcs
    split at hcs
    · cases hcs
    · split at hcs
      · cases hcs
      next rest hrest =>
        cases hcs
        rw [List.map_cons, List.map_cons, ih hrest]

/-- What a written node is made into, under a header. -/
inductive Makes (h : Header) (n : NodeDef Definition) (name : String) : NodeKind Pipe → Prop
  | process {spec : ProcessSpec} : n.process = some spec →
      Whitelist.permits h.whitelist spec.name = true →
      Makes h n name (.process spec.name spec.args)
  | request {payload : Json} : n.request = some payload → Makes h n name (.request payload)
  | ai : Makes h n name (.ai n.prompts (n.model.getD "") (n.options.getD .null))
  | userInput (ui : UiKind) : Makes h n name (.userInput ui n.autofill)
  | switch {written : List (String × Definition)} {cases : List (Case Pipe)} :
      n.cases = some written → casesOf h name written = .ok cases →
      Makes h n name (.switch cases)

theorem makes_of_leafKind {π : Type} {n : NodeDef Definition} {written : NodeDef π} {name : String}
    {kind : NodeKind Pipe} (hp : n.process = written.process) (hr : n.request = written.request)
    (hps : n.prompts = written.prompts) (hm : n.model = written.model)
    (ho : n.options = written.options) (ha : n.autofill = written.autofill)
    (hk : leafKind h name written = some (.ok kind)) : Makes h n name kind := by
  unfold leafKind at hk
  split at hk
  next spec hspec =>
    split at hk
    · cases hk
    · split at hk
      next hpermits =>
        cases hk
        exact .process (hp.trans hspec) hpermits
      · cases hk
  next payload _ hpayload =>
    cases hk
    exact .request (hr.trans hpayload)
  next p ps _ _ hprompts =>
    cases hk
    rw [← hm, ← ho, ← hprompts, ← hps]
    exact .ai
  next ui _ _ _ _ =>
    split at hk
    next kind _ =>
      cases hk
      rw [← ha]
      exact .userInput kind
    · cases hk
  · cases hk

theorem nodeOf_ok {before : List String} {index : Nat} {n : NodeDef Definition} {node : Node Pipe}
    (hn : nodeOf h before index n = .ok node) :
    node.input = n.input ∧ node.output = n.output ∧ Makes h n node.name node.kind := by
  obtain ⟨name, label, process, request, prompts, model, options, ui, autofill, cases, input,
    output⟩ := n
  unfold nodeOf at hn
  split at hn
  · cases hn
  · cases hn
  next name _ =>
    split at hn
    · cases hn
    · dsimp only at hn
      split at hn
      · cases hn
      next kind hleaf =>
        cases hn
        exact ⟨rfl, rfl, makes_of_leafKind rfl rfl rfl rfl rfl rfl hleaf⟩
      · split at hn
        · cases hn
        · cases hn
        next made hne hmade =>
          cases hn
          cases cases with
          | none =>
            cases hmade
            exact absurd rfl hne
          | some written => exact ⟨rfl, rfl, .switch rfl hmade⟩

theorem nodeOf_name {before : List String} {index : Nat} {n : NodeDef Definition}
    {node : Node Pipe} (hn : nodeOf h before index n = .ok node) :
    n.name = some node.name ∧ node.name ∉ before := by
  obtain ⟨name, label, process, request, prompts, model, options, ui, autofill, cases, input,
    output⟩ := n
  unfold nodeOf at hn
  split at hn
  · cases hn
  · cases hn
  next name _ =>
    split at hn
    · cases hn
    next hnew =>
      have hnew' : name ∉ before := by simpa using hnew
      dsimp only at hn
      split at hn
      · cases hn
      · cases hn
        exact ⟨rfl, hnew'⟩
      · split at hn
        · cases hn
        · cases hn
        · cases hn
          exact ⟨rfl, hnew'⟩

theorem nodup_nodesOf {before : List String} {index : Nat} {ns : List (NodeDef Definition)}
    {nodes : List (Node Pipe)} (hns : nodesOf h before index ns = .ok nodes) :
    (nodes.map (·.name)).Nodup ∧ ∀ n ∈ nodes, n.name ∉ before := by
  induction ns generalizing before index nodes with
  | nil =>
    cases hns
    simp
  | cons n ns ih =>
    unfold nodesOf at hns
    split at hns
    · cases hns
    next first hfirst =>
      split at hns
      · cases hns
      next rest hrest =>
        cases hns
        obtain ⟨hnodup, hnew⟩ := ih hrest
        obtain ⟨-, hfirst'⟩ := nodeOf_name hfirst
        refine ⟨List.nodup_cons.mpr ⟨fun hmem => ?_, hnodup⟩, fun other hother => ?_⟩
        · obtain ⟨other, hother, heq⟩ := List.mem_map.mp hmem
          exact hnew other hother (heq ▸ List.mem_cons_self)
        · rcases List.mem_cons.mp hother with rfl | hother
          · exact hfirst'
          · exact fun hmem => hnew other hother (List.mem_cons_of_mem _ hmem)

theorem node_of_pipeOf {d : Definition} {p : Pipe} (hp : pipeOf h d = .ok p) {i : Nat}
    {node : Node Pipe} (hi : p.nodes[i]? = some node) :
    ∃ n, d.nodes[i]? = some n ∧ node.input = n.input ∧ node.output = n.output ∧
      Makes h n node.name node.kind := by
  obtain ⟨nodes, hnodes, rfl⟩ := pipeOf_ok hp
  obtain ⟨n, before, index, hn, hnode⟩ := nodesOf_ok hnodes hi
  exact ⟨n, hn, nodeOf_ok hnode⟩

theorem pipeOf_of_build {fresh : String} {d : Definition} {p : Pipe}
    (hb : build fresh d = .ok p) : pipeOf (rootHeader fresh d) d = .ok p := by
  unfold build at hb
  dsimp only at hb
  split at hb
  · cases hb
  · exact hb

end Pipe

structure Place where
  written : Definition
  pipe : Pipe

/-- The places from a case, innermost first, out to the definition that it is in. -/
inductive Descent (d : Definition) (p : Pipe) : List Place → Prop
  | root : Descent d p [⟨d, p⟩]
  | enter {l : Place} {path : List Place} {i j : Nat} {n : NodeDef Definition}
      {written : List (String × Definition)} {below : String × Definition} {node : Node Pipe}
      {cases : List (Case Pipe)} {c : Case Pipe} (above : Descent d p (l :: path))
      (hn : l.written.nodes[i]? = some n) (hw : n.cases = some written)
      (hj : written[j]? = some below) (hnode : l.pipe.nodes[i]? = some node)
      (hk : node.kind = .switch cases) (hc : cases[j]? = some c) :
      Descent d p (⟨below.2, c.pipe⟩ :: l :: path)

def outermostWhitelist (path : List Place) : Option Whitelist :=
  (path.reverse.findSome? (·.written.whitelist)).map .mk

def nearestProgress (path : List Place) : Option String := path.findSome? (·.written.progress)

theorem outermostWhitelist_append (inner path : List Place) :
    outermostWhitelist (inner ++ path) =
      (outermostWhitelist path).or (outermostWhitelist inner) := by
  simp only [outermostWhitelist, List.reverse_append, List.findSome?_append]
  cases path.reverse.findSome? (·.written.whitelist) <;> rfl

theorem outermostWhitelist_cons (l : Place) (path : List Place) :
    outermostWhitelist (l :: path) =
      (outermostWhitelist path).or (l.written.whitelist.map .mk) := by
  rw [← List.singleton_append, outermostWhitelist_append]
  cases hl : l.written.whitelist <;> simp [outermostWhitelist, hl]

theorem nearestProgress_cons (l : Place) (path : List Place) :
    nearestProgress (l :: path) = l.written.progress.or (nearestProgress path) := by
  simp only [nearestProgress, List.findSome?_cons]
  cases l.written.progress <;> rfl

namespace Descent

variable {fresh : String} {d : Definition} {p : Pipe} {l : Place} {path : List Place}

theorem of_append {inner : List Place} (h : Descent d p (inner ++ l :: path)) :
    Descent d p (l :: path) := by
  induction inner with
  | nil => exact h
  | cons first inner ih =>
    apply ih
    rw [List.cons_append] at h
    generalize hfull : inner ++ l :: path = full at h
    cases h with
    | root => simp at hfull
    | enter above => exact above

theorem built (h : Descent d p (l :: path)) (hb : Pipe.build fresh d = .ok p) :
    ∃ header, Pipe.pipeOf header l.written = .ok l.pipe ∧
      header.whitelist = outermostWhitelist (l :: path) ∧
      header.progress = nearestProgress (l :: path) := by
  generalize hfull : l :: path = full at h ⊢
  induction h generalizing l path with
  | root =>
    cases hfull
    refine ⟨Pipe.rootHeader fresh d, Pipe.pipeOf_of_build hb, ?_, ?_⟩
    · rw [outermostWhitelist_cons]
      exact (Option.none_or ..).symm
    · rw [nearestProgress_cons]
      exact (Option.or_none ..).symm
  | enter above hn hw hj hnode hk hc ih =>
    cases hfull
    obtain ⟨header, hpipe, hwhitelist, hprogress⟩ := ih rfl
    obtain ⟨n', hn', -, -, hmakes⟩ := Pipe.node_of_pipeOf hpipe hnode
    rw [hn] at hn'
    cases hn'
    rw [hk] at hmakes
    cases hmakes with
    | switch hwritten hcases =>
      rw [hw] at hwritten
      cases hwritten
      obtain ⟨e, he, hbelow⟩ := Pipe.casesOf_ok hcases hc
      rw [hj] at he
      cases he
      refine ⟨_, hbelow, ?_, ?_⟩
      · rw [outermostWhitelist_cons, ← hwhitelist]
        rfl
      · rw [nearestProgress_cons, ← hprogress]
        rfl

theorem whitelist_eq (h : Descent d p (l :: path)) (hb : Pipe.build fresh d = .ok p) :
    l.pipe.whitelist = outermostWhitelist (l :: path) := by
  obtain ⟨header, hpipe, hwhitelist, -⟩ := h.built hb
  obtain ⟨nodes, -, hl⟩ := Pipe.pipeOf_ok hpipe
  rw [← hwhitelist, hl]

theorem whitelist_below {inner : List Place} (h : Descent d p (inner ++ l :: path))
    (hb : Pipe.build fresh d = .ok p) {w : Whitelist} (hw : l.pipe.whitelist = some w) :
    ∀ l' ∈ inner, l'.pipe.whitelist = some w := by
  intro l' hmem
  obtain ⟨first, rest, rfl⟩ := List.append_of_mem hmem
  have hl := h.of_append.whitelist_eq hb
  rw [List.append_assoc, List.cons_append] at h
  rw [h.of_append.whitelist_eq hb, ← List.cons_append, outermostWhitelist_append, ← hl, hw]
  rfl

theorem progress_eq (h : Descent d p (l :: path)) (hb : Pipe.build fresh d = .ok p) :
    l.pipe.progress = nearestProgress (l :: path) := by
  obtain ⟨header, hpipe, -, hprogress⟩ := h.built hb
  obtain ⟨nodes, -, hl⟩ := Pipe.pipeOf_ok hpipe
  rw [← hprogress, hl]

theorem node (h : Descent d p (l :: path)) (hb : Pipe.build fresh d = .ok p) {i : Nat}
    {node : Node Pipe} (hi : l.pipe.nodes[i]? = some node) :
    ∃ header n, header.whitelist = outermostWhitelist (l :: path) ∧ l.written.nodes[i]? = some n ∧
      node.input = n.input ∧ node.output = n.output ∧
      Pipe.Makes header n node.name node.kind := by
  obtain ⟨header, hpipe, hwhitelist, -⟩ := h.built hb
  obtain ⟨n, hn, hinput, houtput, hmakes⟩ := Pipe.node_of_pipeOf hpipe hi
  exact ⟨header, n, hwhitelist, hn, hinput, houtput, hmakes⟩

theorem input_eq (h : Descent d p (l :: path)) (hb : Pipe.build fresh d = .ok p) :
    l.pipe.input = l.written.input := by
  obtain ⟨header, hpipe, -⟩ := h.built hb
  obtain ⟨nodes, -, hl⟩ := Pipe.pipeOf_ok hpipe
  rw [hl]

theorem node_name (h : Descent d p (l :: path)) (hb : Pipe.build fresh d = .ok p)
    {node : Node Pipe} (hn : node ∈ l.pipe.nodes) :
    ∃ n ∈ l.written.nodes, n.name = some node.name := by
  obtain ⟨header, hpipe, -⟩ := h.built hb
  obtain ⟨nodes, hnodes, hl⟩ := Pipe.pipeOf_ok hpipe
  rw [hl] at hn
  obtain ⟨i, hi⟩ := List.mem_iff_getElem?.mp hn
  obtain ⟨n, before, index, hwritten, hnode⟩ := Pipe.nodesOf_ok hnodes hi
  exact ⟨n, List.mem_of_getElem? hwritten, (Pipe.nodeOf_name hnode).1⟩

theorem of_hasCase (h : Descent d p (l :: path)) (hb : Pipe.build fresh d = .ok p) {i : Nat}
    {node : Node Pipe} (hi : l.pipe.nodes[i]? = some node) {q : Pipe} (hq : node.HasCase q) :
    ∃ e, Descent d p (⟨e, q⟩ :: l :: path) := by
  obtain ⟨cases, c, hk, hmem, rfl⟩ := hq
  obtain ⟨header, n, -, hn, -, -, hmakes⟩ := h.node hb hi
  obtain ⟨j, hj⟩ := List.getElem?_of_mem hmem
  rw [hk] at hmakes
  cases hmakes with
  | switch hw hcases =>
    obtain ⟨e, he, -⟩ := Pipe.casesOf_ok hcases hj
    exact ⟨e, .enter h hn hw he hi hk hj⟩

theorem within_subset (h : Descent d p (l :: path)) :
    l.written.within (path.length + 1) ⊆ d.within 1 := by
  generalize hfull : l :: path = full at h
  induction h generalizing l path with
  | root =>
    cases hfull
    exact List.Subset.refl _
  | enter above hn hw hj _ _ _ ih =>
    cases hfull
    have hcase : Definition.HasCase _ _ :=
      ⟨_, List.mem_of_getElem? hn, _, hw, _, List.mem_of_getElem? hj⟩
    exact List.Subset.trans (hcase.within_subset _) (ih rfl)

theorem mem_within (h : Descent d p (l :: path)) : (path.length + 1, l.written) ∈ d.within 1 := by
  apply h.within_subset
  rw [Definition.within_eq]
  exact List.mem_cons_self

theorem length_le (h : Descent d p path) : path.length ≤ d.depth := by
  cases path with
  | nil => exact Nat.zero_le _
  | cons l path => exact Definition.le_depth h.mem_within

end Descent

def plainNode (name : String) : NodeDef Definition :=
  ⟨some name, some name, none, none, [], none, none, none, none, none, none, none⟩

def Definition.built (d : Definition) : Pipe :=
  (Pipe.build "" d).toOption.getD ⟨"", "", [], none, none, none, none, none, none, none⟩

theorem Definition.build_built {d : Definition} (h : (Pipe.build "" d).isOk = true) :
    Pipe.build "" d = .ok d.built := by
  unfold built
  cases hb : Pipe.build "" d with
  | error e =>
    rw [hb] at h
    cases h
  | ok p => rfl

def guardedCase : Definition :=
  ⟨none, none,
    [{ plainNode "say" with process := some ⟨"tell", .str "hello"⟩ },
      { plainNode "think" with prompts := [⟨"user", none, "well"⟩] },
      { plainNode "ask" with ui := some "web" }],
    none, none, none, some ["*"], none⟩

def guardedDefinition : Definition :=
  ⟨none, some "main", [{ plainNode "pick" with cases := some [("true", guardedCase)] }], none, none,
    none, some ["tell"], some "watch"⟩

def guardedPipe : Pipe :=
  (Pipe.build "" guardedDefinition).toOption.getD ⟨"", "", [], none, none, none, none, none, none,
    none⟩

theorem build_guardedDefinition : Pipe.build "" guardedDefinition = .ok guardedPipe :=
  Definition.build_built (by decide +kernel)

example : guardedDefinition.depth = 2 := by decide +kernel

end Pipework
