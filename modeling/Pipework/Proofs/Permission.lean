import Pipework.Proofs.Calls

/-!
# Which processes a run can call

Whitelists are checked when a pipe is built, and calls are made by the frames of its runs. A process
that a run calls is written at the node that calls it, and the outermost whitelist above that node
allows it; hooks are those that the nearest definition above declares.
-/

namespace Pipework

variable {σ : Type}

/-- What holds of a call at a node of the innermost place on the way, for the handler of processes.
-/
def Call.Permitted (l : Place) (path : List Place) (r : Run) (n : Node Pipe) : Call → Prop
  | .process name _ c =>
    (∃ written spec, l.written.nodes[r.stack.top.cursor]? = some written ∧
      written.process = some spec ∧ spec.name = name) ∧
    Whitelist.permits (outermostWhitelist (l :: path)) name = true ∧ c = r.callContext n
  | .hook call => nearestProgress (l :: path) = some call.name ∧ n.kind.type = .ai ∧
    call.context = r.callContext n
  | _ => True

theorem Call.Of.permitted {fresh : String} {d : Definition} {p : Pipe} {l : Place}
    {path : List Place} {r : Run} {n : Node Pipe} {call : Call} (h : call.Of r n)
    (hl : Descent d p (l :: path)) (hb : Pipe.build fresh d = .ok p)
    (hpipe : r.stack.top.pipe = l.pipe) (hn : r.current? = some n) :
    call.Permitted l path r n := by
  cases h with
  | process hk =>
    rw [Run.current?, Frame.current?, hpipe] at hn
    obtain ⟨header, written, hwhitelist, hwritten, -, -, hmakes⟩ := hl.node hb hn
    rw [hk] at hmakes
    cases hmakes with
    | process hspec hpermits =>
      rw [hwhitelist] at hpermits
      exact ⟨⟨written, _, hwritten, hspec, rfl⟩, hpermits, rfl⟩
  | hook hk hprogress =>
    rw [hpipe, hl.progress_eq hb] at hprogress
    exact ⟨hprogress, by rw [hk]; rfl, rfl⟩
  | request | chat | render => trivial

/-- The calls of a run of the pipe are made at nodes of its definition, and where they go to the
handler of processes they are permitted there. -/
theorem Call.Next.permitted {fresh : String} {d : Definition} {p : Pipe} {r : Run} {call : Call}
    (h : call.Next r) (hb : Pipe.build fresh d = .ok p) (hr : r.stack.InPlace p) :
    ∃ l path n, Descent d p (l :: path) ∧
      (l :: path).map (·.pipe) = r.stack.frames.map (·.pipe) ∧ r.current? = some n ∧
      call.Permitted l path r n := by
  obtain ⟨n, hn, hof⟩ := h
  obtain ⟨l, path, hpath, hpipe, hpipes⟩ := hr.descent hb
  exact ⟨l, path, n, hpath, by rw [Stack.frames, List.map_cons, List.map_cons, hpipe, hpipes], hn,
    hof.permitted hpath hb hpipe.symm hn⟩

namespace Engine

theorem inPlace_of_begins (eng : Engine σ) (w : σ) {before after : List (Action σ)}
    {act : Action σ} {r : String} {p : Pipe}
    (hr : act.Begins (eng.play (.init w) before) r p) {h : Nat} {a : Attempt} {run : Run}
    {left : Nat}
    (hx : (eng.play (.init w) (before ++ act :: after)).hands h = some ⟨a, .running run left⟩)
    (hid : run.id = r) : run.stack.InPlace p := by
  have hu : Positioned (fun id q => id = r → q = p)
      (eng.play (.init w) (before ++ act :: after)) := by
    refine eng.positioned_play _ w fun before' act' after' hsplit id q hbegins => ?_
    rintro rfl
    exact begins_once hsplit.symm hbegins hr
  obtain ⟨-, q, hplace, hq⟩ := hu.hands hx
  exact hq hid ▸ hplace

/-- From a definition that declares a whitelist down, all pipes carry the outermost one, and hooks
are those declared nearest. Whenever a run of the pipe calls the handler of processes, in whatever
order the steps of all clients come, the call stands at its place in the definition and is permitted
there: it has the name that is written at the node, and the whitelist allows it, or else it is the
hook of a node that chats. -/
theorem calls_permitted (eng : Engine σ) (w : σ) {fresh : String} {d : Definition} {p : Pipe}
    (hb : Pipe.build fresh d = .ok p) {before after : List (Action (σ × List Call))}
    {act : Action (σ × List Call)} {r : String}
    (hr : act.Begins (eng.traced.play (.init (w, [])) before) r p) :
    let s := eng.traced.play (.init (w, [])) (before ++ act :: after)
    (∀ l path, Descent d p (l :: path) →
      l.pipe.whitelist = outermostWhitelist (l :: path) ∧
      l.pipe.progress = nearestProgress (l :: path)) ∧
    (∀ l path inner, Descent d p (inner ++ l :: path) → ∀ allowed,
      l.pipe.whitelist = some allowed → ∀ l' ∈ inner, l'.pipe.whitelist = some allowed) ∧
    ∀ next, (∀ v, next ≠ .outside v) →
      Made (fun call => ∃ h a run left, next = .turn h ∧
        s.hands h = some ⟨a, .running run left⟩ ∧
        (run.id = r → ∃ l path n, Descent d p (l :: path) ∧
          (l :: path).map (·.pipe) = run.stack.frames.map (·.pipe) ∧ run.current? = some n ∧
          call.Permitted l path run n))
        s.world (eng.traced.step s next).world := by
  intro s
  refine ⟨fun l path hl => ⟨hl.whitelist_eq hb, hl.progress_eq hb⟩,
    fun l path inner hl allowed hw => hl.whitelist_below hb hw, fun next hnext => ?_⟩
  refine (eng.made_step s hnext).mono fun call hcall => ?_
  cases hcall with
  | turn hx hcalls =>
    refine ⟨_, _, _, _, rfl, hx, fun hid => ?_⟩
    have hplace := eng.traced.inPlace_of_begins (w, []) hr hx hid
    exact hcalls.permitted hb hplace

end Engine

def guardedSystem : System (Nat × List Call) :=
  countingEngine.traced.play (.init (0, [])) [.start "r" guardedPipe, .exec 0 [], .turn 0]

def guardedCall : Call := .process "tell" (.str "hello") ⟨"main.pick#true", "r", "say", "", []⟩

def Hand.standing? (x : Hand) : Option (String × Nat) :=
  match x.stage with
  | .running run _ => some (run.id, run.stack.frames.length)
  | _ => none

theorem permitted_guardedCall :
    Pipe.build "" guardedDefinition = .ok guardedPipe ∧ guardedSystem.world.2 = [] ∧
      (countingEngine.traced.step guardedSystem (.turn 0)).world.2 = [guardedCall] ∧
      ∃ l path r n, Descent guardedDefinition guardedPipe (l :: path) ∧ path.length = 1 ∧
        guardedCall.Permitted l path r n := by
  have hbegins : Action.Begins (System.init ((0, []) : Nat × List Call)) (.start "r" guardedPipe)
      "r" guardedPipe := .start (by simp [System.init])
  have hnone : guardedSystem.world.2 = [] := by decide +kernel
  have hcall : (countingEngine.traced.step guardedSystem (.turn 0)).world.2 = [guardedCall] := by
    decide +kernel
  have hrun : (guardedSystem.hands 0).bind Hand.standing? = some ("r", 2) := by decide +kernel
  obtain ⟨-, -, hcalls⟩ := @Engine.calls_permitted _ countingEngine 0 _ _ _
    build_guardedDefinition [] [.exec 0 [], .turn 0] _ _ hbegins
  obtain ⟨new, hnew, hall⟩ := hcalls (.turn 0) (by simp)
  change _ = guardedSystem.world.2 ++ new at hnew
  have hnew' : new = [guardedCall] := by
    rw [hnone, List.nil_append] at hnew
    exact hnew.symm.trans hcall
  obtain ⟨h, a, run, left, hh, hx, hpermitted⟩ := hall guardedCall (by simp [hnew'])
  cases hh
  change guardedSystem.hands 0 = _ at hx
  rw [hx] at hrun
  obtain ⟨hid, hlength⟩ := Prod.ext_iff.mp (Option.some.inj hrun)
  obtain ⟨l, path, n, hpath, hpipes, -, hcall'⟩ := hpermitted hid
  have hdepth := congrArg List.length hpipes
  rw [List.length_map, List.length_map, List.length_cons] at hdepth
  exact ⟨build_guardedDefinition, hnone, hcall, l, path, run, n, hpath,
    Nat.succ.inj (hdepth.trans hlength), hcall'⟩

end Pipework
