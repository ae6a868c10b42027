import Pipework.Proofs.Nesting

/-!
# Valid definitions and violations

A definition is valid if its nodes have names of their own and what they do is in order, and if so are
all cases of its switches. What is not in order about a definition is told by its violations, which
have positions in the order of the text.
-/

namespace Pipework

inductive Payload
  | process (spec : ProcessSpec)
  | request (payload : Json)
  | prompts (prompts : List Prompt)
  | ui (kind : String)
  | cases (written : List (String × Definition))

def populated {α : Type} (xs : List α) : Option (List α) := if xs.isEmpty then none else some xs

def NodeDef.payload? (n : NodeDef Definition) : Option Payload :=
  [n.process.map .process, n.request.map .request, (populated n.prompts).map .prompts,
    n.ui.map .ui, (n.cases.bind populated).map .cases].findSome? id

def effectiveWhitelist (declared : List (Option (List String))) : Option Whitelist :=
  (declared.findSome? id).map .mk

def Payload.Valid (declared : List (Option (List String))) : Payload → Prop
  | process spec => spec.name ≠ "" ∧
      Whitelist.permits (effectiveWhitelist declared) spec.name = true
  | ui kind => kind ∈ ["cli", "web", "form", "chat"]
  | request _ | prompts _ | cases _ => True

/-- A valid definition, below definitions that declare whitelists. A case may be without nodes. -/
inductive Definition.Valid : List (Option (List String)) → Definition → Prop
  | mk {declared : List (Option (List String))} {d : Definition}
      (named : ∀ (i : Nat) (n : NodeDef Definition), d.nodes[i]? = some n →
        ∃ name, n.name = some name ∧ name ≠ "" ∧
          ∀ (j : Nat) (m : NodeDef Definition), j < i → d.nodes[j]? = some m → m.name ≠ some name)
      (decided : ∀ n ∈ d.nodes, ∃ p, n.payload? = some p ∧ p.Valid declared)
      (cases : ∀ n ∈ d.nodes, ∀ written, n.payload? = some (.cases written) →
        ∀ expression e, (expression, e) ∈ written → Valid (declared ++ [e.whitelist]) e) :
      Valid declared d

/-- What is wrong about the node at a place, but for its cases. The checks have numbers: the name, the
names before it, the payload. -/
inductive Fault (pipe : String) (declared : List (Option (List String))) (d : Definition) (i : Nat)
    (n : NodeDef Definition) : Nat → BuildError → Prop
  | unnamed : n.name.getD "" = "" → Fault pipe declared d i n 0 (.missingNodeName pipe i)
  | repeated {name : String} {j : Nat} {m : NodeDef Definition} : n.name = some name → j < i →
      d.nodes[j]? = some m → m.name = some name →
      Fault pipe declared d i n 1 (.duplicateNodeName pipe name)
  | unnamedProcess {name : String} {spec : ProcessSpec} : n.name = some name →
      n.payload? = some (.process spec) → spec.name = "" →
      Fault pipe declared d i n 2 (.missingProcessName pipe name)
  | forbidden {name : String} {spec : ProcessSpec} : n.name = some name →
      n.payload? = some (.process spec) → spec.name ≠ "" →
      Whitelist.permits (effectiveWhitelist declared) spec.name = false →
      Fault pipe declared d i n 2 (.processNotAllowed pipe name spec.name)
  | strange {name kind : String} : n.name = some name → n.payload? = some (.ui kind) →
      kind ∉ ["cli", "web", "form", "chat"] →
      Fault pipe declared d i n 2 (.invalidUiKind pipe name kind)
  | untyped {name : String} : n.name = some name → n.payload? = none →
      Fault pipe declared d i n 2 (.unknownNodeType pipe name)

/-- The violations of a definition with their positions: the place of the node and the number of the
check, and in a case, which is checked as the payload, the place of the case and the position there. -/
inductive Violation : String → List (Option (List String)) → Definition → List Nat → BuildError → Prop
  | here {pipe : String} {declared : List (Option (List String))} {d : Definition} {i k : Nat}
      {n : NodeDef Definition} {e : BuildError} : d.nodes[i]? = some n →
      Fault pipe declared d i n k e → Violation pipe declared d [i, k] e
  | inside {pipe name expression : String} {declared : List (Option (List String))}
      {d below : Definition} {i j : Nat} {n : NodeDef Definition}
      {written : List (String × Definition)} {position : List Nat} {e : BuildError} :
      d.nodes[i]? = some n → n.name = some name → n.payload? = some (.cases written) →
      written[j]? = some (expression, below) →
      Violation (pipe ++ "." ++ name ++ "#" ++ expression) (declared ++ [below.whitelist]) below
        position e →
      Violation pipe declared d (i :: 2 :: j :: position) e

inductive RootViolation (fresh : String) (d : Definition) : List Nat → BuildError → Prop
  | empty : d.nodes = [] → RootViolation fresh d [] (.emptyPipe ((d.id.or d.name).getD fresh))
  | inside {position : List Nat} {e : BuildError} :
      Violation ((d.id.or d.name).getD fresh) [d.whitelist] d position e →
      RootViolation fresh d position e

def First (V : List Nat → BuildError → Prop) (e : BuildError) : Prop :=
  ∃ position, V position e ∧
    ∀ position' e', V position' e' → (position' = position ∧ e' = e) ∨ position < position'

def Reports {α : Type} (V : List Nat → BuildError → Prop) : Except BuildError α → Prop
  | .ok _ => ∀ position e, ¬ V position e
  | .error e => First V e

section Reports

variable {α β : Type} {V W : List Nat → BuildError → Prop}

theorem First.unique {e e' : BuildError} (h : First V e) (h' : First V e') : e = e' := by
  obtain ⟨position, hv, hfirst⟩ := h
  obtain ⟨position', hv', hfirst'⟩ := h'
  obtain ⟨-, heq⟩ | hlt := hfirst position' e' hv'
  · exact heq.symm
  · obtain ⟨-, heq⟩ | hlt' := hfirst' position e hv
    · exact heq
    · exact absurd (List.lt_trans hlt hlt') (List.lt_irrefl _)

theorem Reports.congr {r : Except BuildError α} (h : Reports V r)
    (hiff : ∀ position e, W position e ↔ V position e) : Reports W r := by
  have heq : W = V := funext fun position => funext fun e => propext (hiff position e)
  exact heq ▸ h

theorem Reports.map {r : Except BuildError α} (h : Reports V r) (f : α → β) :
    Reports V (r.map f) := by
  cases r with
  | ok => exact h
  | error => exact h

def Since (k : Nat) (V : List Nat → BuildError → Prop) (position : List Nat) (e : BuildError) : Prop :=
  V position e ∧ ∃ i rest, position = i :: rest ∧ k ≤ i

theorem Reports.bind {k : Nat} {r : Except BuildError α} {f : α → Except BuildError β}
    (hhere : Reports (fun rest e => V (k :: rest) e) r)
    (hlater : ∀ x, r = .ok x → Reports (Since (k + 1) V) (f x)) :
    Reports (Since k V) (r.bind f) := by
  cases r with
  | error e =>
    obtain ⟨rest, hv, hfirst⟩ := hhere
    refine ⟨k :: rest, ⟨hv, k, rest, rfl, Nat.le_refl k⟩, ?_⟩
    rintro _ e' ⟨hv', i, rest', rfl, hi⟩
    obtain hlt | rfl := Nat.lt_or_eq_of_le hi
    · exact .inr (List.Lex.rel hlt)
    · obtain ⟨rfl, rfl⟩ | hlt := hfirst rest' e' hv'
      · exact .inl ⟨rfl, rfl⟩
      · exact .inr (List.Lex.cons hlt)
  | ok x =>
    refine (hlater x rfl).congr fun position e => ?_
    constructor
    · rintro ⟨hv, i, rest, rfl, hi⟩
      obtain hlt | rfl := Nat.lt_or_eq_of_le hi
      · exact ⟨hv, i, rest, rfl, hlt⟩
      · exact absurd hv (hhere rest e)
    · rintro ⟨hv, i, rest, rfl, hi⟩
      exact ⟨hv, i, rest, rfl, Nat.le_of_succ_le hi⟩

theorem Reports.under {k : Nat} {r : Except BuildError α} (h : Reports V r)
    (hiff : ∀ position e, W position e ↔ ∃ rest, position = k :: rest ∧ V rest e) : Reports W r := by
  cases r with
  | ok x =>
    intro position e hw
    obtain ⟨rest, -, hv⟩ := (hiff position e).mp hw
    exact h rest e hv
  | error e =>
    obtain ⟨rest, hv, hfirst⟩ := h
    refine ⟨k :: rest, (hiff _ _).mpr ⟨rest, rfl, hv⟩, fun position' e' hw => ?_⟩
    obtain ⟨rest', rfl, hv'⟩ := (hiff position' e').mp hw
    obtain ⟨rfl, rfl⟩ | hlt := hfirst rest' e' hv'
    · exact .inl ⟨rfl, rfl⟩
    · exact .inr (List.Lex.cons hlt)

end Reports

theorem Definition.HasCase.sizeOf_lt {d e : Definition} (h : d.HasCase e) : sizeOf e < sizeOf d := by
  obtain ⟨n, hn, cases, hcases, expression, hmem⟩ := h
  have hcase : sizeOf (expression, e) < sizeOf cases := List.sizeOf_lt_of_mem hmem
  have hnode : sizeOf n < sizeOf d.nodes := List.sizeOf_lt_of_mem hn
  have hnodes : sizeOf d.nodes < sizeOf d := by
    cases d
    simp
    omega
  have hsome : sizeOf cases < sizeOf n := by
    cases n
    dsimp only at hcases
    subst hcases
    simp
    omega
  simp at hcase
  omega

theorem Definition.rec_cases {P : Definition → Prop}
    (step : ∀ d : Definition, (∀ e, d.HasCase e → P e) → P d) (d : Definition) : P d :=
  step d fun e _he => rec_cases step e
termination_by sizeOf d
decreasing_by exact _he.sizeOf_lt

theorem NodeDef.cases_of_payload? {n : NodeDef Definition} {written : List (String × Definition)}
    (h : n.payload? = some (.cases written)) : n.cases = some written := by
  obtain ⟨name, label, process, request, prompts, model, options, ui, autofill, cases, input,
    output⟩ := n
  cases process with
  | some => cases h
  | none =>
  cases request with
  | some => cases h
  | none =>
  cases prompts with
  | cons => cases h
  | nil =>
  cases ui with
  | some => cases h
  | none =>
  cases cases with
  | none => cases h
  | some written =>
    cases written with
    | nil => cases h
    | cons =>
      cases h
      rfl

theorem effectiveWhitelist_append (declared : List (Option (List String)))
    (own : Option (List String)) :
    effectiveWhitelist (declared ++ [own]) = (effectiveWhitelist declared).or (own.map .mk) := by
  simp only [effectiveWhitelist, List.findSome?_append]
  cases declared.findSome? id <;> cases own <;> rfl

section Faults

variable {pipe : String} {declared : List (Option (List String))} {d : Definition} {i k : Nat}
  {n : NodeDef Definition} {e e' : BuildError}

theorem Fault.unique (h : Fault pipe declared d i n k e) (h' : Fault pipe declared d i n k e') :
    e = e' := by
  cases h <;> cases h' <;> simp_all

theorem Fault.le_two (h : Fault pipe declared d i n k e) : k ≤ 2 := by
  cases h <;> decide

theorem Violation.at (hn : d.nodes[i]? = some n) {rest : List Nat}
    (h : Violation pipe declared d (i :: rest) e) :
    (∃ k, rest = [k] ∧ Fault pipe declared d i n k e) ∨
    ∃ written j position name expression below, n.name = some name ∧
      n.payload? = some (.cases written) ∧ written[j]? = some (expression, below) ∧
      rest = 2 :: j :: position ∧
      Violation (pipe ++ "." ++ name ++ "#" ++ expression) (declared ++ [below.whitelist]) below
        position e := by
  cases h with
  | here hn' hf =>
    cases hn.symm.trans hn'
    exact .inl ⟨_, rfl, hf⟩
  | inside hn' hname hp hj hbelow =>
    cases hn.symm.trans hn'
    exact .inr ⟨_, _, _, _, _, _, hname, hp, hj, rfl, hbelow⟩

/-- The fault of the lowest number comes first at its node. What is wrong in its cases comes after the
third check. -/
theorem Fault.first (hn : d.nodes[i]? = some n) (h : Fault pipe declared d i n k e)
    (hleast : ∀ k' e', Fault pipe declared d i n k' e' → k ≤ k') :
    First (fun rest e => Violation pipe declared d (i :: rest) e) e := by
  refine ⟨[k], .here hn h, fun rest e' hv => ?_⟩
  obtain ⟨k', rfl, hf⟩ | ⟨_, j, position, _, _, _, -, -, -, rfl, -⟩ := hv.at hn
  · obtain hlt | rfl := Nat.lt_or_eq_of_le (hleast k' e' hf)
    · exact .inr (List.Lex.rel hlt)
    · exact .inl ⟨rfl, hf.unique h⟩
  · obtain hlt | rfl := Nat.lt_or_eq_of_le h.le_two
    · exact .inr (List.Lex.rel hlt)
    · exact .inr (List.Lex.cons List.Lex.nil)

theorem Fault.eq_two (h : Fault pipe declared d i n k e) {name : String} (hname : n.name = some name)
    (hempty : name ≠ "") (hnew : ∀ j m, j < i → d.nodes[j]? = some m → m.name ≠ some name) :
    k = 2 := by
  cases h with
  | unnamed hnone => exact absurd (by simpa [hname] using hnone) hempty
  | repeated hname' hj hm hsame =>
    cases hname.symm.trans hname'
    exact absurd hsame (hnew _ _ hj hm)
  | unnamedProcess | forbidden | strange | untyped => rfl

def CaseViolation (pipe name : String) (declared : List (Option (List String)))
    (written : List (String × Definition)) (position : List Nat) (e : BuildError) : Prop :=
  ∃ j rest expression below, position = j :: rest ∧ written[j]? = some (expression, below) ∧
    Violation (pipe ++ "." ++ name ++ "#" ++ expression) (declared ++ [below.whitelist]) below rest e

theorem Fault.not_valid {p : Payload} (h : Fault pipe declared d i n 2 e)
    (hp : n.payload? = some p) : ¬ p.Valid declared := by
  intro hvalid
  cases h with
  | unnamedProcess _ hp' hspec =>
    cases hp.symm.trans hp'
    exact hvalid.1 hspec
  | forbidden _ hp' _ hforbidden =>
    cases hp.symm.trans hp'
    cases hvalid.2.symm.trans hforbidden
  | strange _ hp' hstrange =>
    cases hp.symm.trans hp'
    exact hstrange hvalid
  | untyped _ hp' => cases hp.symm.trans hp'

theorem no_violation {p : Payload} (hn : d.nodes[i]? = some n)
    (htwo : ∀ k e, Fault pipe declared d i n k e → k = 2) (hp : n.payload? = some p)
    (hvalid : p.Valid declared) (hleaf : ∀ written, p ≠ .cases written) (rest : List Nat)
    (e : BuildError) : ¬ Violation pipe declared d (i :: rest) e := by
  intro hv
  obtain ⟨k, -, hf⟩ | ⟨written, _, _, _, _, _, -, hp', -⟩ := hv.at hn
  · cases htwo k e hf
    exact hf.not_valid hp hvalid
  · exact hleaf written (Option.some.inj (hp.symm.trans hp'))

theorem Definition.Valid.no_fault (h : d.Valid declared) (hn : d.nodes[i]? = some n) :
    ¬ Fault pipe declared d i n k e := by
  obtain ⟨named, decided, -⟩ := h
  obtain ⟨name, hname, hempty, hnew⟩ := named i n hn
  obtain ⟨p, hp, hvalid⟩ := decided n (List.mem_of_getElem? hn)
  intro hf
  cases hf.eq_two hname hempty hnew
  exact hf.not_valid hp hvalid

theorem Definition.Valid.no_violation (h : d.Valid declared) {position : List Nat} :
    ¬ Violation pipe declared d position e := by
  intro hv
  induction hv with
  | here hn hf => exact h.no_fault hn hf
  | inside hn hname hp hj hbelow ih =>
    obtain ⟨-, -, cases⟩ := h
    exact ih (cases _ (List.mem_of_getElem? hn) _ hp _ _ (List.mem_of_getElem? hj))

theorem Definition.valid_of_no_violation
    (hnone : ∀ position e, ¬ Violation pipe declared d position e) : d.Valid declared := by
  induction d using Definition.rec_cases generalizing pipe declared with
  | step d ih =>
    have named (i : Nat) (n : NodeDef Definition) (hn : d.nodes[i]? = some n) :
        ∃ name, n.name = some name ∧ name ≠ "" := by
      cases hname : n.name with
      | none => exact absurd (.here hn (.unnamed (by rw [hname]; rfl))) (hnone _ _)
      | some name =>
        refine ⟨name, rfl, fun hempty => hnone _ _ (.here hn (.unnamed ?_))⟩
        rw [hname, hempty, Option.getD_some]
    refine .mk (fun i n hn => ?_) (fun n hmem => ?_) fun n hmem written hp expression e he => ?_
    · obtain ⟨name, hname, hempty⟩ := named i n hn
      exact ⟨name, hname, hempty, fun j m hj hm hsame =>
        hnone _ _ (.here hn (.repeated hname hj hm hsame))⟩
    · obtain ⟨i, hn⟩ := List.mem_iff_getElem?.mp hmem
      obtain ⟨name, hname, -⟩ := named i n hn
      cases hp : n.payload? with
      | none => exact absurd (.here hn (.untyped hname hp)) (hnone _ _)
      | some p =>
        refine ⟨p, rfl, ?_⟩
        cases p with
        | process spec =>
          have hspec : spec.name ≠ "" := fun heq =>
            hnone _ _ (.here hn (.unnamedProcess hname hp heq))
          refine ⟨hspec, ?_⟩
          cases hpermits : Whitelist.permits (effectiveWhitelist declared) spec.name with
          | true => rfl
          | false => exact absurd (.here hn (.forbidden hname hp hspec hpermits)) (hnone _ _)
        | ui kind =>
          by_cases hkind : kind ∈ ["cli", "web", "form", "chat"]
          · exact hkind
          · exact absurd (.here hn (.strange hname hp hkind)) (hnone _ _)
        | request | prompts | cases => trivial
    · obtain ⟨i, hn⟩ := List.mem_iff_getElem?.mp hmem
      obtain ⟨j, hj⟩ := List.mem_iff_getElem?.mp he
      obtain ⟨name, hname, -⟩ := named i n hn
      exact ih e ⟨n, hmem, written, n.cases_of_payload? hp, expression, he⟩ fun position e hv =>
        hnone _ _ (.inside hn hname hp hj hv)

theorem Definition.no_rootViolation_iff (fresh : String) :
    (∀ position e, ¬ RootViolation fresh d position e) ↔ d.nodes ≠ [] ∧ d.Valid [d.whitelist] := by
  constructor
  · intro hnone
    exact ⟨fun hempty => hnone _ _ (.empty hempty),
      valid_of_no_violation fun position e hv => hnone position e (.inside hv)⟩
  · rintro ⟨hnodes, hvalid⟩ position e hv
    cases hv with
    | empty hempty => exact hnodes hempty
    | inside hv => exact hvalid.no_violation hv

end Faults

end Pipework
