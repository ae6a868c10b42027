import Pipework.Proofs.Passing

/-!
# Which nodes share a memory

The memory of a node goes by the id of its pipe and its name, and the id of a case is put together
from the id of the pipe above, the name of the switch node and the expression of the case. As long
as none of these parts holds a sign that separates them, the key says where in the tree a node is.
-/

namespace Pipework

def separableCases (written : List (String × Definition)) : Prop :=
  (written.map Prod.fst).Nodup ∧ ∀ c ∈ written, '#' ∉ c.1.toList

instance (written : List (String × Definition)) : Decidable (separableCases written) :=
  inferInstanceAs (Decidable ((written.map Prod.fst).Nodup ∧ ∀ c ∈ written, '#' ∉ c.1.toList))

def NodeDef.Separable (n : NodeDef Definition) : Prop :=
  (∀ name ∈ n.name, '#' ∉ name.toList) ∧
    ∀ written ∈ n.cases, (∀ name ∈ n.name, '.' ∉ name.toList) ∧ separableCases written

instance (n : NodeDef Definition) : Decidable n.Separable :=
  inferInstanceAs (Decidable ((∀ name ∈ n.name, '#' ∉ name.toList) ∧
    ∀ written ∈ n.cases, (∀ name ∈ n.name, '.' ∉ name.toList) ∧ separableCases written))

def Definition.Separable (d : Definition) : Prop :=
  ∀ x ∈ d.within 1, ∀ n ∈ x.2.nodes, n.Separable

instance (d : Definition) : Decidable d.Separable :=
  inferInstanceAs (Decidable (∀ x ∈ d.within 1, ∀ n ∈ x.2.nodes, n.Separable))

namespace Pipe

structure Separable (q : Pipe) : Prop where
  names : (q.nodes.map (·.name)).Nodup
  name : ∀ n ∈ q.nodes, '#' ∉ n.name.toList
  switch : ∀ n ∈ q.nodes, ∀ cases, n.kind = .switch cases →
    '.' ∉ n.name.toList ∧ (cases.map (·.expression)).Nodup
  case : ∀ n ∈ q.nodes, ∀ cases, n.kind = .switch cases → ∀ c ∈ cases,
    '#' ∉ c.expression.toList ∧ c.pipe.id = q.id ++ "." ++ n.name ++ "#" ++ c.expression

theorem Inner.separable {fresh : String} {d : Definition} {p q : Pipe} (h : p.Inner q)
    (hd : d.Separable) (hb : build fresh d = .ok p) : q.Separable := by
  obtain ⟨l, path, hpath, rfl⟩ := h.descent hb
  obtain ⟨header, hpipe, -⟩ := hpath.built hb
  obtain ⟨nodes, hnodes, hl⟩ := pipeOf_ok hpipe
  have hwithin := hd _ hpath.mem_within
  have hid : l.pipe.id = header.id := by rw [hl]
  have hmade {n : Node Pipe} (hn : n ∈ l.pipe.nodes) :
      ∃ written, written.Separable ∧ written.name = some n.name ∧
        Makes header written n.name n.kind := by
    rw [hl] at hn
    obtain ⟨i, hi⟩ := List.mem_iff_getElem?.mp hn
    obtain ⟨written, before, index, hwritten, hnode⟩ := nodesOf_ok hnodes hi
    exact ⟨written, hwithin written (List.mem_of_getElem? hwritten), (nodeOf_name hnode).1,
      (nodeOf_ok hnode).2.2⟩
  have hswitch {n : Node Pipe} (hn : n ∈ l.pipe.nodes) {cases : List (Case Pipe)}
      (hk : n.kind = .switch cases) :
      ∃ written, '.' ∉ n.name.toList ∧ separableCases written ∧
        casesOf header n.name written = .ok cases := by
    obtain ⟨node, ⟨-, hsep⟩, hname, hmakes⟩ := hmade hn
    rw [hk] at hmakes
    cases hmakes with
    | switch hwritten hcases =>
      obtain ⟨hdot, hseparable⟩ := hsep _ hwritten
      exact ⟨_, hdot n.name hname, hseparable, hcases⟩
  refine ⟨?_, fun n hn => ?_, fun n hn cases hk => ?_, fun n hn cases hk c hc => ?_⟩
  · rw [hl]
    exact (nodup_nodesOf hnodes).1
  · obtain ⟨written, ⟨hname, -⟩, hwritten, -⟩ := hmade hn
    exact hname n.name hwritten
  · obtain ⟨written, hdot, hseparable, hcases⟩ := hswitch hn hk
    exact ⟨hdot, casesOf_expressions hcases ▸ hseparable.1⟩
  · obtain ⟨written, -, hseparable, hcases⟩ := hswitch hn hk
    obtain ⟨j, hj⟩ := List.mem_iff_getElem?.mp hc
    obtain ⟨e, he, hbelow⟩ := casesOf_ok hcases hj
    obtain ⟨inner, -, hcase⟩ := pipeOf_ok hbelow
    refine ⟨hseparable.2 _ (List.mem_of_getElem? he), ?_⟩
    rw [hcase, hid]
    rfl

/-- The pipe at a place, innermost step first: which node, and which of its cases. -/
inductive At (p : Pipe) : List (Nat × Nat) → Pipe → Prop
  | root : At p [] p
  | case {place : List (Nat × Nat)} {q : Pipe} {i j : Nat} {n : Node Pipe}
      {cases : List (Case Pipe)} {c : Case Pipe} : At p place q → q.nodes[i]? = some n →
      n.kind = .switch cases → cases[j]? = some c → At p ((i, j) :: place) c.pipe

theorem At.inner {p q : Pipe} {place : List (Nat × Nat)} (h : p.At place q) : p.Inner q := by
  induction h with
  | root => exact .self
  | case _ hn hk hc ih =>
    exact .case ih (List.mem_of_getElem? hn) ⟨_, _, hk, List.mem_of_getElem? hc, rfl⟩

theorem Inner.exists_at {p q : Pipe} (h : p.Inner q) : ∃ place, p.At place q := by
  induction h with
  | self => exact ⟨[], .root⟩
  | case _ hn hcase ih =>
    obtain ⟨place, hplace⟩ := ih
    obtain ⟨cases, c, hk, hc, rfl⟩ := hcase
    obtain ⟨i, hi⟩ := List.mem_iff_getElem?.mp hn
    obtain ⟨j, hj⟩ := List.mem_iff_getElem?.mp hc
    exact ⟨(i, j) :: place, .case hplace hi hk hj⟩

theorem At.unique {p q q' : Pipe} {place : List (Nat × Nat)} (h : p.At place q)
    (h' : p.At place q') : q = q' := by
  induction h generalizing q' with
  | root =>
    cases h' with
    | root => rfl
  | case _ hn hk hc ih =>
    cases h' with
    | case habove hn' hk' hc' =>
      obtain rfl := ih habove
      obtain rfl := Option.some.inj (hn.symm.trans hn')
      obtain rfl := NodeKind.switch.inj (hk.symm.trans hk')
      obtain rfl := Option.some.inj (hc.symm.trans hc')
      rfl

end Pipe

theorem append_separator_inj {l l' r r' : List Char} {c : Char} (hr : c ∉ r) (hr' : c ∉ r')
    (h : l ++ c :: r = l' ++ c :: r') : l = l' ∧ r = r' := by
  have leftmost {x r r' : List Char} (hr : c ∉ r) (hx : c :: r = x ++ c :: r') :
      x = [] ∧ r = r' := by
    cases x with
    | nil => exact ⟨rfl, (List.cons.inj hx).2⟩
    | cons a x =>
      obtain ⟨-, rfl⟩ := List.cons.inj hx
      simp at hr
  rcases List.append_eq_append_iff.mp h with ⟨x, rfl, hx⟩ | ⟨x, rfl, hx⟩
  · obtain ⟨rfl, rfl⟩ := leftmost hr hx
    exact ⟨(List.append_nil _).symm, rfl⟩
  · obtain ⟨rfl, rfl⟩ := leftmost hr' hx
    exact ⟨List.append_nil _, rfl⟩

theorem separated_inj {sep a a' b b' : String} {c : Char} (hsep : sep.toList = [c])
    (hb : c ∉ b.toList) (hb' : c ∉ b'.toList) (h : a ++ sep ++ b = a' ++ sep ++ b') :
    a = a' ∧ b = b' := by
  have hlist := congrArg String.toList h
  simp only [String.toList_append, hsep, List.append_assoc, List.singleton_append] at hlist
  obtain ⟨ha, hb⟩ := append_separator_inj hb hb' hlist
  exact ⟨String.toList_inj.mp ha, String.toList_inj.mp hb⟩

theorem index_eq_of_nodup {α β : Type} {xs : List α} {f : α → β} (h : (xs.map f).Nodup)
    {i j : Nat} {a b : α} (hi : xs[i]? = some a) (hj : xs[j]? = some b) (hab : f a = f b) :
    i = j := by
  obtain ⟨hlt, -⟩ := List.getElem?_eq_some_iff.mp hi
  refine (List.getElem?_inj (by simpa using hlt) h).mp ?_
  rw [List.getElem?_map, List.getElem?_map, hi, hj, Option.map_some, Option.map_some, hab]

namespace Pipe.At

variable {p q q' : Pipe} {place place' : List (Nat × Nat)}

section

variable (hsep : ∀ q, p.Inner q → q.Separable)
include hsep

theorem length_id (h : p.At place q) : p.id.length + place.length ≤ q.id.length := by
  induction h with
  | root => simp
  | @case place q i j n cases c habove hn hk hc ih =>
    have hcase := (hsep q habove.inner).case n (List.mem_of_getElem? hn) cases hk c
      (List.mem_of_getElem? hc)
    rw [hcase.2]
    simp only [String.length_append, List.length_cons]
    have hdot : ".".length = 1 := by decide
    omega

theorem place_eq (h : p.At place q) (h' : p.At place' q') (hid : q.id = q'.id) :
    place = place' := by
  induction h generalizing place' q' with
  | root =>
    -- The id of a case is longer than that of the whole.
    have hlength := h'.length_id hsep
    rw [← hid] at hlength
    exact (List.length_eq_zero_iff.mp (by omega)).symm
  | @case place q i j n cases c habove hn hk hc ih =>
    -- The last `#` splits off the expression, and the last `.` before it the name of the node.
    have hq := hsep q habove.inner
    have hnode := List.mem_of_getElem? hn
    obtain ⟨hexpression, hcase⟩ := hq.case n hnode cases hk c (List.mem_of_getElem? hc)
    cases h' with
    | root =>
      have hlength := (At.case habove hn hk hc).length_id hsep
      rw [hid, List.length_cons] at hlength
      omega
    | @case place' q' i' j' n' cases' c' habove' hn' hk' hc' =>
      have hq' := hsep q' habove'.inner
      have hnode' := List.mem_of_getElem? hn'
      obtain ⟨hexpression', hcase'⟩ := hq'.case n' hnode' cases' hk' c' (List.mem_of_getElem? hc')
      rw [hcase, hcase'] at hid
      obtain ⟨hscope, he⟩ := separated_inj (c := '#') rfl hexpression hexpression' hid
      obtain ⟨hpipe, hname⟩ := separated_inj (c := '.') rfl (hq.switch n hnode cases hk).1
        (hq'.switch n' hnode' cases' hk').1 hscope
      obtain rfl := ih habove' hpipe
      obtain rfl := habove.unique habove'
      obtain rfl := index_eq_of_nodup hq.names hn hn' hname
      obtain rfl := Option.some.inj (hn.symm.trans hn')
      obtain rfl := NodeKind.switch.inj (hk.symm.trans hk')
      obtain rfl := index_eq_of_nodup (hq.switch n hnode cases hk).2 hc hc' he
      rfl

theorem key_inj {i i' : Nat} {n n' : Node Pipe} (h : p.At place q) (h' : p.At place' q')
    (hn : q.nodes[i]? = some n) (hn' : q'.nodes[i']? = some n')
    (hkey : PromptMemory.key q.id n.name = PromptMemory.key q'.id n'.name) :
    place = place' ∧ i = i' := by
  have hq := hsep q h.inner
  have hq' := hsep q' h'.inner
  obtain ⟨hid, hname⟩ := separated_inj (c := '#') rfl (hq.name n (List.mem_of_getElem? hn))
    (hq'.name n' (List.mem_of_getElem? hn')) hkey
  obtain rfl := h.place_eq hsep h' hid
  obtain rfl := h.unique h'
  exact ⟨rfl, index_eq_of_nodup hq.names hn hn' hname⟩

end

end Pipe.At

end Pipework
