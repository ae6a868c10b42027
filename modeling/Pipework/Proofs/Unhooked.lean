import Pipework.Proofs.Upkeep

/-!
# Runs without their progress hooks

A pipe can be stripped of its progress hooks, at every depth. Building a stripped definition gives
the stripped pipe, and what a run does apart from calling services does not look at the hooks: every
operation on a run leads from the stripped run to what the stripped result is.
-/

namespace Pipework

mutual
def Pipe.unhooked : Pipe → Pipe
  | ⟨id, name, nodes, whitelist, goto, input, output, _, scope, parent⟩ =>
    ⟨id, name, Pipe.unhookedNodes nodes, whitelist, goto, input, output, none, scope, parent⟩
termination_by structural p => p

def Pipe.unhookedNodes : List (Node Pipe) → List (Node Pipe)
  | [] => []
  | n :: ns => n.unhooked :: Pipe.unhookedNodes ns
termination_by structural ns => ns

def Node.unhooked : Node Pipe → Node Pipe
  | ⟨name, label, index, kind, input, output⟩ => ⟨name, label, index, kind.unhooked, input, output⟩
termination_by structural n => n

def NodeKind.unhooked : NodeKind Pipe → NodeKind Pipe
  | .process name args => .process name args
  | .switch cases => .switch (Pipe.unhookedCases cases)
  | .ai prompts model options => .ai prompts model options
  | .request payload => .request payload
  | .userInput ui autofill => .userInput ui autofill
termination_by structural k => k

def Pipe.unhookedCases : List (Case Pipe) → List (Case Pipe)
  | [] => []
  | ⟨expression, p⟩ :: cs => ⟨expression, p.unhooked⟩ :: Pipe.unhookedCases cs
termination_by structural cs => cs
end

mutual
def Definition.unhooked : Definition → Definition
  | ⟨id, name, nodes, goto, input, output, whitelist, _⟩ =>
    ⟨id, name, Definition.unhookedNodes nodes, goto, input, output, whitelist, none⟩
termination_by structural d => d

def Definition.unhookedNodes : List (NodeDef Definition) → List (NodeDef Definition)
  | [] => []
  | n :: ns => n.unhooked :: Definition.unhookedNodes ns
termination_by structural ns => ns

def NodeDef.unhooked : NodeDef Definition → NodeDef Definition
  | ⟨name, label, process, request, prompts, model, options, ui, autofill, cases, input, output⟩ =>
    ⟨name, label, process, request, prompts, model, options, ui, autofill,
      Definition.unhookedSome cases, input, output⟩
termination_by structural n => n

def Definition.unhookedSome :
    Option (List (String × Definition)) → Option (List (String × Definition))
  | none => none
  | some cases => some (Definition.unhookedCases cases)
termination_by structural cs => cs

def Definition.unhookedCases : List (String × Definition) → List (String × Definition)
  | [] => []
  | (expression, d) :: cases => (expression, d.unhooked) :: Definition.unhookedCases cases
termination_by structural cs => cs
end

def Case.unhooked (c : Case Pipe) : Case Pipe := ⟨c.expression, c.pipe.unhooked⟩

namespace Pipe

theorem unhookedNodes_eq (ns : List (Node Pipe)) : unhookedNodes ns = ns.map Node.unhooked := by
  induction ns with
  | nil => rfl
  | cons n ns ih => rw [unhookedNodes, ih, List.map_cons]

theorem unhookedCases_eq (cs : List (Case Pipe)) : unhookedCases cs = cs.map Case.unhooked := by
  induction cs with
  | nil => rfl
  | cons c cs ih =>
    obtain ⟨expression, p⟩ := c
    rw [unhookedCases, ih, List.map_cons, Case.unhooked]

variable (p : Pipe)

@[simp] theorem unhooked_id : p.unhooked.id = p.id := by cases p; rfl

@[simp] theorem unhooked_goto : p.unhooked.goto = p.goto := by cases p; rfl

@[simp] theorem unhooked_input : p.unhooked.input = p.input := by cases p; rfl

@[simp] theorem unhooked_output : p.unhooked.output = p.output := by cases p; rfl

@[simp] theorem unhooked_progress : p.unhooked.progress = none := by cases p; rfl

@[simp] theorem unhooked_nodes : p.unhooked.nodes = p.nodes.map Node.unhooked := by
  cases p
  exact unhookedNodes_eq _

end Pipe

namespace Node

variable (n : Node Pipe)

@[simp] theorem unhooked_name : n.unhooked.name = n.name := by cases n; rfl

@[simp] theorem unhooked_label : n.unhooked.label = n.label := by cases n; rfl

@[simp] theorem unhooked_index : n.unhooked.index = n.index := by cases n; rfl

@[simp] theorem unhooked_input : n.unhooked.input = n.input := by cases n; rfl

@[simp] theorem unhooked_output : n.unhooked.output = n.output := by cases n; rfl

@[simp] theorem unhooked_kind : n.unhooked.kind = n.kind.unhooked := by cases n; rfl

end Node

namespace Pipe

variable (p : Pipe)

@[simp] theorem isControl_unhooked : p.unhooked.isControl = p.isControl := by
  simp [isControl]

@[simp] theorem indexOf?_unhooked (node : String) : p.unhooked.indexOf? node = p.indexOf? node := by
  simp only [indexOf?, unhooked_nodes, List.findIdx?_map]
  congr 1
  funext n
  simp

end Pipe

@[simp] theorem NodeKind.unhooked_switch (cases : List (Case Pipe)) :
    (switch cases).unhooked = switch (cases.map Case.unhooked) := by
  rw [unhooked, Pipe.unhookedCases_eq]

namespace Pipe

def Header.unhooked (h : Header) : Header := { h with progress := none }

theorem rootHeader_unhooked (fresh : String) (d : Definition) :
    rootHeader fresh d.unhooked = (rootHeader fresh d).unhooked := by
  cases d
  rfl

theorem Header.forCase_unhooked (h : Header) (node expression : String) (d : Definition) :
    h.unhooked.forCase node expression d.unhooked = (h.forCase node expression d).unhooked := by
  cases d
  rfl

theorem leafKind_unhooked {π : Type} (h : Header) (node : String) (n : NodeDef π) :
    leafKind h.unhooked node n = leafKind h node n := rfl

theorem unhooked_of_leafKind {π : Type} {h : Header} {node : String} {n : NodeDef π}
    {kind : NodeKind Pipe} (hk : leafKind h node n = some (.ok kind)) : kind.unhooked = kind := by
  unfold leafKind at hk
  split at hk
  · split at hk
    · cases hk
    · split at hk
      · cases hk
        rfl
      · cases hk
  · cases hk
    rfl
  · cases hk
    rfl
  · split at hk
    · cases hk
      rfl
    · cases hk
  · cases hk

mutual
theorem pipeOf_unhooked (h : Header) (d : Definition) :
    pipeOf h.unhooked d.unhooked = (pipeOf h d).map unhooked := by
  match d with
  | ⟨id, name, nodes, goto, input, output, whitelist, progress⟩ =>
    simp only [Definition.unhooked, pipeOf, nodesOf_unhooked h [] 0 nodes]
    cases nodesOf h [] 0 nodes with
    | error e => rfl
    | ok nodes => simp only [Except.map, unhooked, unhookedNodes_eq, Header.unhooked]
termination_by structural d

theorem nodesOf_unhooked (h : Header) (before : List String) (index : Nat)
    (ns : List (NodeDef Definition)) :
    nodesOf h.unhooked before index (Definition.unhookedNodes ns) =
      (nodesOf h before index ns).map (·.map Node.unhooked) := by
  match ns with
  | [] => rfl
  | n :: ns =>
    simp only [Definition.unhookedNodes, nodesOf, nodeOf_unhooked h before index n]
    cases nodeOf h before index n with
    | error e => rfl
    | ok node =>
      simp only [Except.map, Node.unhooked_name,
        nodesOf_unhooked h (node.name :: before) (index + 1) ns]
      cases nodesOf h (node.name :: before) (index + 1) ns <;> rfl
termination_by structural ns

theorem nodeOf_unhooked (h : Header) (before : List String) (index : Nat)
    (n : NodeDef Definition) :
    nodeOf h.unhooked before index n.unhooked = (nodeOf h before index n).map Node.unhooked := by
  match n with
  | ⟨name, label, process, request, prompts, model, options, ui, autofill, cases, input, output⟩ =>
    simp only [NodeDef.unhooked, nodeOf, leafKind_unhooked, casesIn_unhooked h _ cases]
    split
    · rfl
    · rfl
    next name _ =>
      split
      · rfl
      · split
        · rfl
        next hleaf =>
          simp only [Except.map, Node.unhooked, unhooked_of_leafKind hleaf]
        · cases casesIn h name cases with
          | error e => rfl
          | ok cases => cases cases with
            | nil => rfl
            | cons c cases => simp [Except.map, Node.unhooked]
termination_by structural n

theorem casesIn_unhooked (h : Header) (node : String)
    (cases : Option (List (String × Definition))) :
    casesIn h.unhooked node (Definition.unhookedSome cases) =
      (casesIn h node cases).map (·.map Case.unhooked) := by
  match cases with
  | none => rfl
  | some cases => exact casesOf_unhooked h node cases
termination_by structural cases

theorem casesOf_unhooked (h : Header) (node : String) (cases : List (String × Definition)) :
    casesOf h.unhooked node (Definition.unhookedCases cases) =
      (casesOf h node cases).map (·.map Case.unhooked) := by
  match cases with
  | [] => rfl
  | (expression, d) :: cases =>
    simp only [Definition.unhookedCases, casesOf, Header.forCase_unhooked,
      pipeOf_unhooked (h.forCase node expression d) d, casesOf_unhooked h node cases]
    cases pipeOf (h.forCase node expression d) d with
    | error e => rfl
    | ok p =>
      dsimp only [Except.map]
      cases casesOf h node cases <;> rfl
termination_by structural cases
end

/-- What is built of a stripped definition is the stripped pipe. -/
theorem build_unhooked (fresh : String) (d : Definition) :
    build fresh d.unhooked = (build fresh d).map unhooked := by
  have hempty : d.unhooked.nodes.isEmpty = d.nodes.isEmpty := by
    obtain ⟨id, name, nodes, goto, input, output, whitelist, progress⟩ := d
    cases nodes <;> rfl
  simp only [build, hempty, rootHeader_unhooked, pipeOf_unhooked]
  split <;> rfl

end Pipe

def Frame.bare (f : Frame) : Frame := { f with pipe := f.pipe.unhooked }

namespace Frame

variable (f : Frame)

@[simp] theorem bare_pipe : f.bare.pipe = f.pipe.unhooked := rfl

@[simp] theorem bare_data : f.bare.data = f.data := rfl

@[simp] theorem bare_dataValue : f.bare.dataValue = f.dataValue := rfl

@[simp] theorem bare_input : f.bare.input = f.input := rfl

@[simp] theorem bare_jump : f.bare.jump = f.jump := rfl

@[simp] theorem current?_bare : f.bare.current? = f.current?.map Node.unhooked := by
  simp only [current?, bare, Pipe.unhooked_nodes, List.getElem?_map]

theorem bind_bare (ev : Evaluator) (input : List Json) :
    f.bare.bind ev input = (f.bind ev input).map bare := by
  have hshown : f.bare.visibleInput input = f.visibleInput input := rfl
  simp only [bind, bare_pipe, Pipe.unhooked_input, bare_data, hshown]
  cases f.pipe.input with
  | none => rfl
  | some spec =>
    dsimp only
    cases ev.resolve (.obj (Keyed.put f.data "input" (f.visibleInput input))) spec <;> rfl

theorem child_bare (ev : Evaluator) (p : Pipe) (parent : Frame) :
    Frame.child ev p.unhooked parent.bare = (Frame.child ev p parent).map bare :=
  bind_bare ⟨p, 0, parent.data, [], none, _⟩ ev parent.input

theorem advance_bare : f.bare.advance = f.advance.map bare := by
  simp only [advance, bare_jump, bare_pipe, Pipe.indexOf?_unhooked]
  cases f.jump with
  | none => rfl
  | some target =>
    dsimp only
    cases f.pipe.indexOf? target <;> rfl

end Frame

namespace Run

def bare (d : Instant → Instant) (r : Run) : Run :=
  { r with stack := r.stack.map Frame.bare, paused := r.paused.map (Snapshot.redate d) }

variable (d : Instant → Instant) (r : Run) (ev : Evaluator)

@[simp] theorem bare_top : (r.bare d).stack.top = r.stack.top.bare := rfl

@[simp] theorem bare_below : (r.bare d).stack.below = r.stack.below.map Frame.bare := rfl

@[simp] theorem bare_id : (r.bare d).id = r.id := rfl

@[simp] theorem pipe_bare : (r.bare d).pipe = r.pipe.unhooked := by
  simp only [pipe, Stack.root, bare_below, bare_top, List.getLast?_map]
  cases r.stack.below.getLast? <;> rfl

theorem push_bare (child : Frame) :
    ({ r with stack := r.stack.push child } : Run).bare d =
      { r.bare d with stack := (r.bare d).stack.push child.bare } := rfl

theorem pause_bare (x : Snapshot) :
    ({ r with paused := some x } : Run).bare d =
      { r.bare d with paused := some (x.redate d) } := rfl

theorem pass_bare (node : String) (output : Json) :
    (r.bare d).pass node output = (r.pass node output).map (bare d) := by
  have hrecord : r.stack.top.bare.record node output = (r.stack.top.record node output).bare := rfl
  simp only [pass, bare_top, hrecord, Frame.advance_bare, Frame.bare_pipe, Pipe.unhooked_id,
    bare_id]
  cases (r.stack.top.record node output).advance <;> rfl

theorem close_bare : (r.bare d).close ev = r.close ev := by
  simp only [close, bare_top, Frame.bare_pipe, Frame.bare_dataValue, Pipe.unhooked_goto,
    Pipe.unhooked_output, Pipe.unhooked_id, bare_id]

theorem caseResult_bare (child : Frame) (output : Option Json) :
    caseResult child.bare output = caseResult child output := by
  simp only [caseResult, Frame.bare_pipe, Pipe.isControl_unhooked, Frame.bare_data]

theorem closeCase_bare (parent : Frame) (rest : List Frame) :
    (r.bare d).closeCase ev parent.bare (rest.map Frame.bare) =
      (r.closeCase ev parent rest).map (bare d) := by
  simp only [closeCase, close_bare, Frame.current?_bare, bare_top, caseResult_bare]
  cases r.close ev with
  | error e => rfl
  | ok c =>
    obtain ⟨goto, output⟩ := c
    let below : Run := { r with stack := ⟨{ parent with jump := goto.or parent.jump }, rest⟩ }
    have hbelow : ({ r.bare d with stack :=
        ⟨{ parent.bare with jump := goto.or parent.bare.jump }, rest.map Frame.bare⟩ } : Run) =
        below.bare d := rfl
    dsimp only
    rw [hbelow]
    cases parent.current? with
    | some n =>
      dsimp only [Option.map]
      rw [Node.unhooked_name, pass_bare]
    | none =>
      have hadvance : Frame.advance { parent.bare with jump := goto.or parent.bare.jump } =
          (Frame.advance { parent with jump := goto.or parent.jump }).map Frame.bare :=
        Frame.advance_bare { parent with jump := goto.or parent.jump }
      dsimp only [Option.map]
      rw [hadvance]
      cases Frame.advance { parent with jump := goto.or parent.jump } with
      | ok f => rfl
      | error target => simp [Except.map]

theorem closeRoot_bare :
    (r.bare d).closeRoot ev =
      (r.closeRoot ev).map (Sum.map (bare d) fun value => value) := by
  simp only [closeRoot, close_bare, bare_top, Frame.bare_pipe, Pipe.indexOf?_unhooked,
    Frame.bare_dataValue, Pipe.unhooked_id, bare_id]
  cases r.close ev with
  | error e => rfl
  | ok c =>
    obtain ⟨goto, output⟩ := c
    cases goto with
    | none => rfl
    | some target =>
      dsimp only
      cases r.stack.top.pipe.indexOf? target <;> rfl

theorem restart_bare (input : List Json) :
    (r.bare d).restart ev input = (r.restart ev input).map (bare d) := by
  have hroot : Frame.root (r.bare d).pipe (r.bare d).global (r.bare d).sid =
      (Frame.root r.pipe r.global r.sid).bare := by
    rw [pipe_bare]
    rfl
  unfold restart
  rw [hroot, Frame.bind_bare, pipe_bare, Pipe.unhooked_id]
  cases (Frame.root r.pipe r.global r.sid).bind ev input <;> rfl

theorem nodeError_bare (n : Node Pipe) (e : NodeError) :
    (r.bare d).nodeError n.unhooked e = r.nodeError n e := by
  simp [nodeError]

theorem callContext_bare (n : Node Pipe) :
    (r.bare d).callContext n.unhooked = r.callContext n := by
  simp only [callContext, bare_top, Frame.bare_pipe, Pipe.unhooked_id, Node.unhooked_name]
  rfl

theorem mapOutput_bare (n : Node Pipe) (raw : Json) :
    (r.bare d).mapOutput ev n.unhooked raw = r.mapOutput ev n raw := by
  have herror : (r.bare d).nodeError n.unhooked = r.nodeError n := funext (r.nodeError_bare d n)
  simp only [mapOutput, Node.unhooked_output, bare_top, Frame.bare_data, herror]

theorem answer_bare (answers : List Json) :
    (r.bare d).answer ev answers = (r.answer ev answers).map (bare d) := by
  have hpaused : ({ r.bare d with paused := none } : Run) =
      ({ r with paused := none } : Run).bare d := rfl
  unfold answer
  rw [hpaused]
  generalize ({ r with paused := none } : Run) = r
  dsimp only
  rw [bare_top, Frame.current?_bare]
  cases r.stack.top.current? with
  | none => rfl
  | some n =>
    dsimp only [Option.map]
    rw [Frame.bare_input, Frame.bind_bare, Frame.bare_pipe, Pipe.unhooked_id, bare_id]
    cases r.stack.top.bind ev (r.stack.top.input ++ answers) with
    | error e => rfl
    | ok f =>
      have htop : (r.bare d).withTop f.bare = (r.withTop f).bare d := rfl
      dsimp only [Except.map]
      rw [htop, mapOutput_bare, Node.unhooked_name]
      cases (r.withTop f).mapOutput ev n (answerValue answers) with
      | error e => rfl
      | ok output => exact pass_bare d (r.withTop f) n.name output

end Run

theorem selectCase_unhooked (ev : Evaluator) (data : Json) (fallback : Option (Case Pipe))
    (cases : List (Case Pipe)) :
    selectCase ev data (fallback.map Case.unhooked) (cases.map Case.unhooked) =
      (selectCase ev data fallback cases).map (·.map Case.unhooked) := by
  induction cases generalizing fallback with
  | nil => rfl
  | cons c cs ih =>
    have hexpression : c.unhooked.expression = c.expression := rfl
    have hor : (fallback.map Case.unhooked).or (some c.unhooked) =
        (fallback.or (some c)).map Case.unhooked := by
      cases fallback <;> rfl
    simp only [List.map_cons, selectCase, hexpression, hor, ih]
    split
    · rfl
    · split <;> rfl

end Pipework
