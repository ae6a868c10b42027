import Pipework.Proofs.Calls
import Pipework.Proofs.Lifetime

/-!
# What templates see

The data of a frame hold what the engine shows, `global`, `sid`, `input` and `output`, beside the
outputs of nodes under their names. A node that goes by one of these names puts its output in the
place of what the engine shows there, so what is shown is true up to such nodes.
-/

namespace Pipework

variable {σ : Type}

def engineKeys : List String := ["global", "sid", "input", "output"]

def Unnamed (key : String) (frames : List Frame) : Prop :=
  ∀ f ∈ frames, ∀ n ∈ f.pipe.nodes, n.name ≠ key

/-- Every frame shows the value under the key, unless a node of its pipe or of a pipe below goes by
that name. -/
def Shows (key : String) (value : Json) : List Frame → Prop
  | [] => True
  | f :: below =>
    (Unnamed key (f :: below) → Keyed.get? f.data key = some value) ∧ Shows key value below

section

variable {key : String} {value : Json} {f g : Frame} {below : List Frame}

theorem Unnamed.tail (h : Unnamed key (f :: below)) : Unnamed key below :=
  fun g hg => h g (List.mem_cons_of_mem f hg)

theorem Unnamed.congr (h : Unnamed key (f :: below)) (hpipe : f.pipe = g.pipe) :
    Unnamed key (g :: below) := by
  intro k hk
  rcases List.mem_cons.mp hk with rfl | hk
  · rw [← hpipe]
    exact h f List.mem_cons_self
  · exact h.tail k hk

theorem Unnamed.current (h : Unnamed key (f :: below)) {n : Node Pipe} (hn : f.current? = some n) :
    n.name ≠ key :=
  h f List.mem_cons_self n (List.mem_of_getElem? hn)

namespace Shows

theorem of_mem {frames : List Frame} (h : Shows key value frames) (hkey : Unnamed key frames) :
    ∀ f ∈ frames, Keyed.get? f.data key = some value := by
  induction frames with
  | nil => simp
  | cons g below ih =>
    obtain ⟨hg, hbelow⟩ := h
    intro f hf
    rcases List.mem_cons.mp hf with rfl | hf
    · exact hg hkey
    · exact ih hbelow hkey.tail f hf

theorem replace (h : Shows key value (f :: below)) (hpipe : g.pipe = f.pipe)
    (hdata : Unnamed key (f :: below) → Keyed.get? g.data key = Keyed.get? f.data key) :
    Shows key value (g :: below) := by
  refine ⟨fun hkey => ?_, h.2⟩
  have hkey' := hkey.congr hpipe
  rw [hdata hkey']
  exact h.1 hkey'

theorem record (h : Shows key value (f :: below)) (hlatest : key ≠ "output") {n : Node Pipe}
    {output : Json} (hn : f.current? = some n) (hg : f.Records n.name output g) :
    Shows key value (g :: below) := by
  refine h.replace hg.pipe fun hkey => ?_
  have hname := hkey.current hn
  rw [hg.data]
  exact Frame.get?_record_of_ne hname.symm hlatest

theorem turns {ev : Evaluator} {s s' : Stack} {new : List (String × Json)}
    (h : Shows key value s.frames) (ht : Stack.Turns ev s new s') (hinput : key ≠ "input")
    (hlatest : key ≠ "output") : Shows key value s'.frames := by
  cases ht with
  | record hn hg => exact h.record hlatest hn hg
  | enter hn hcase hchild =>
    -- The case starts from the data of the frame below it.
    refine ⟨fun hkey => ?_, h⟩
    rw [Frame.get?_bind_of_ne hchild hinput]
    exact h.1 hkey.tail
  | leave hn hg => exact h.2.record hlatest hn hg
  | again i => exact h.replace rfl fun _ => rfl

theorem map {frames : List Frame} {g : Frame → Frame} {value' : Json}
    (h : Shows key value frames) (hpipe : ∀ f, (g f).pipe = f.pipe)
    (hdata : ∀ f, Keyed.get? f.data key = some value → Keyed.get? (g f).data key = some value') :
    Shows key value' (frames.map g) := by
  induction frames with
  | nil => trivial
  | cons f below ih =>
    refine ⟨fun hkey => hdata f (h.1 ?_), ih h.2⟩
    intro k hk n hn
    refine hkey (g k) (List.mem_map_of_mem hk) n ?_
    rw [hpipe k]
    exact hn

end Shows

end

structure ShowsOutputs (data : Keyed Json) (log : List (String × Json)) : Prop where
  nodes : ∀ name ∉ engineKeys, Keyed.get? data name = Keyed.get? log.reverse name
  latest : Keyed.get? data "output" = some ((log.getLast?.map Prod.snd).getD .null)

namespace ShowsOutputs

variable {data data' : Keyed Json} {log : List (String × Json)}

theorem congr (h : ShowsOutputs data log) (hdata : ∀ key, key ≠ "global" → key ≠ "sid" →
    key ≠ "input" → Keyed.get? data' key = Keyed.get? data key) : ShowsOutputs data' log where
  nodes name hname := by
    have hne := hname
    simp only [engineKeys, List.mem_cons, not_or] at hne
    rw [hdata name hne.1 hne.2.1 hne.2.2.1]
    exact h.nodes name hname
  latest := by
    rw [hdata "output" (by decide) (by decide) (by decide)]
    exact h.latest

theorem record {f : Frame} (h : ShowsOutputs f.data log) (node : String) (output : Json) :
    ShowsOutputs (f.record node output).data (log ++ [(node, output)]) where
  nodes name hname := by
    rw [List.reverse_append, List.reverse_singleton, List.singleton_append, Keyed.get?]
    split
    next heq =>
      subst heq
      exact Frame.get?_record_self f node output
    next hne =>
      have hlatest : name ≠ "output" := by
        rintro rfl
        simp [engineKeys] at hname
      rw [Frame.get?_record_of_ne (Ne.symm hne) hlatest]
      exact h.nodes name hname
  latest := by simp

/-- Only what is recorded over no other frames is recorded in the first pipe. -/
theorem replace {f g : Frame} {below : List Frame}
    (h : ShowsOutputs (Stack.root ⟨f, below⟩).data log) {node : String} {output : Json}
    (hg : f.Records node output g) :
    ShowsOutputs (Stack.root ⟨g, below⟩).data (log ++ firstPipe below node output) := by
  cases below with
  | nil =>
    have hdata : (Stack.root ⟨g, []⟩).data = (f.record node output).data := hg.data
    rw [hdata]
    exact ShowsOutputs.record (f := f) h node output
  | cons parent rest =>
    rw [firstPipe, List.append_nil]
    simpa [Stack.root, List.getLast?_cons] using h

theorem turns {ev : Evaluator} {s s' : Stack} {new : List (String × Json)}
    (h : ShowsOutputs s.root.data log) (ht : Stack.Turns ev s new s') :
    ShowsOutputs s'.root.data (log ++ new) := by
  cases ht with
  | record _ hg => exact h.replace hg
  | @enter f child below =>
    have hroot : Stack.root ⟨child, f :: below⟩ = Stack.root ⟨f, below⟩ :=
      Stack.root_push ⟨f, below⟩ child
    rw [List.append_nil, hroot]
    exact h
  | @leave top f _ rest _ _ _ hg =>
    have hroot : Stack.root ⟨top, f :: rest⟩ = Stack.root ⟨f, rest⟩ :=
      Stack.root_push ⟨f, rest⟩ top
    rw [hroot] at h
    exact h.replace hg
  | again i =>
    rw [List.append_nil]
    exact h

end ShowsOutputs

@[simp] theorem Stack.root_map (s : Stack) (g : Frame → Frame) : (s.map g).root = g s.root := by
  simp only [Stack.root, Stack.map, List.getLast?_map]
  cases s.below.getLast? <;> rfl

/-- What templates see of a run and of what its first pipe has recorded. -/
structure Run.Faithful (r : Run) (log : List (String × Json)) : Prop where
  global : Shows "global" (.obj r.global) r.stack.frames
  sid : Shows "sid" (.str r.sid) r.stack.frames
  outputs : ShowsOutputs r.stack.root.data log

namespace Run.Faithful

variable {r r' : Run} {log : List (String × Json)}

theorem root (p : Pipe) (global : Keyed Json) (sid : String) :
    Keyed.get? (Frame.root p global sid).data "global" = some (.obj global) ∧
      Keyed.get? (Frame.root p global sid).data "sid" = some (.str sid) ∧
      ShowsOutputs (Frame.root p global sid).data [] := by
  refine ⟨rfl, rfl, fun name hname => ?_, rfl⟩
  simp only [engineKeys, List.mem_cons, not_or, List.not_mem_nil, not_false_eq_true,
    and_true] at hname
  obtain ⟨hglobal, hsid, hinput, houtput⟩ := hname
  simp [Frame.root, Keyed.get?, Ne.symm hglobal, Ne.symm hsid, Ne.symm hinput, Ne.symm houtput]

theorem start (id : String) (p : Pipe) : (Run.start id p).Faithful [] := by
  obtain ⟨hglobal, hsid, hrecorded⟩ := root p [] ""
  exact ⟨⟨fun _ => hglobal, trivial⟩, ⟨fun _ => hsid, trivial⟩, hrecorded⟩

theorem restart {ev : Evaluator} {input : List Json} (hr : r.restart ev input = .ok r') :
    r'.Faithful [] := by
  obtain ⟨f, hf, rfl⟩ := Run.restart_root hr
  obtain ⟨hglobal, hsid, hrecorded⟩ := root r.pipe r.global r.sid
  have hdata {key : String} (hkey : key ≠ "input") := Frame.get?_bind_of_ne hf hkey
  refine ⟨⟨fun _ => ?_, trivial⟩, ⟨fun _ => ?_, trivial⟩, ?_⟩
  · exact (hdata (by decide)).trans hglobal
  · exact (hdata (by decide)).trans hsid
  · exact hrecorded.congr fun key _ _ hinput => hdata hinput

theorem withGlobal (h : r.Faithful log) (global : Keyed Json) :
    (r.withGlobal global).Faithful log where
  global := h.global.map (g := (·.setGlobal global)) (fun _ => rfl) fun f _ =>
    Keyed.get?_put_self f.data "global" (.obj global)
  sid := h.sid.map (g := (·.setGlobal global)) (fun _ => rfl) fun f hf => by
    rw [Frame.setGlobal, Keyed.get?_put_of_ne _ (by decide)]
    exact hf
  outputs := by
    have hroot : (r.withGlobal global).stack.root = r.stack.root.setGlobal global :=
      Stack.root_map ..
    rw [hroot]
    exact h.outputs.congr fun key hkey _ _ => Keyed.get?_put_of_ne _ hkey _

theorem withSid (h : r.Faithful log) (sid : String) : (r.withSid sid).Faithful log where
  global := h.global.map (g := (·.setSid sid)) (fun _ => rfl) fun f hf => by
    rw [Frame.setSid, Keyed.get?_put_of_ne _ (by decide)]
    exact hf
  sid := h.sid.map (g := (·.setSid sid)) (fun _ => rfl) fun f _ =>
    Keyed.get?_put_self f.data "sid" (.str sid)
  outputs := by
    have hroot : (r.withSid sid).stack.root = r.stack.root.setSid sid := Stack.root_map ..
    rw [hroot]
    exact h.outputs.congr fun key _ hkey _ => Keyed.get?_put_of_ne _ hkey _

theorem answer {ev : Evaluator} {answers : List Json} (h : r.Faithful log)
    (hr : r.answer ev answers = .ok r') : r'.Faithful (log ++ r.finishedBy ev answers) := by
  obtain ⟨n, f, g, output, hn, hf, hg, hnew, rfl⟩ := Run.answer_records hr
  rw [hnew]
  obtain ⟨id, sid, global, memory, ⟨top, below⟩, paused⟩ := r
  have hdata {key : String} (hkey : key ≠ "input") := Frame.get?_bind_of_ne hf hkey
  obtain ⟨data, hbound⟩ := Frame.bind_eq hf
  have hpipe : f.pipe = top.pipe := by rw [hbound]
  have hn' : f.current? = some n := by
    rw [hbound]
    exact hn
  refine ⟨?_, ?_, ?_⟩
  · have hshows := h.global.replace hpipe fun _ => hdata (by decide)
    exact hshows.record (by decide) hn' hg
  · have hshows := h.sid.replace hpipe fun _ => hdata (by decide)
    exact hshows.record (by decide) hn' hg
  · have hrecorded : ShowsOutputs (Stack.root ⟨f, below⟩).data log := by
      refine h.outputs.congr fun key _ _ hinput => ?_
      cases below with
      | nil => exact hdata hinput
      | cons parent rest => simp only [Stack.root, List.getLast?_cons, Option.getD_some]
    exact hrecorded.replace hg

theorem turns {ev : Evaluator} {new : List (String × Json)} (h : r.Faithful log)
    (hr : r.SameRun r') (ht : Stack.Turns ev r.stack new r'.stack) : r'.Faithful (log ++ new) where
  global := by
    rw [hr.global]
    exact h.global.turns ht (by decide) (by decide)
  sid := by
    rw [hr.sid]
    exact h.sid.turns ht (by decide) (by decide)
  outputs := h.outputs.turns ht

end Run.Faithful

namespace Engine

theorem Reaches.faithful {eng : Engine σ} {p : Pipe} {r : Run} {log : List (String × Json)}
    (h : eng.Reaches p r log) : r.Faithful log := by
  induction h with
  | start id => exact .start id p
  | global global _ ih => exact ih.withGlobal global
  | sid sid _ ih => exact ih.withSid sid
  | restart _ hr _ => exact .restart hr
  | answer _ _ hr ih => exact ih.answer hr
  | more hreached _ ht ih =>
    exact ih.turns (eng.moves_of_turn ht).sameRun (turns_of_more hreached.atRest.stack ht)
  | done _ _ ht ih =>
    obtain ⟨hid, hsid, hglobal⟩ := eng.sameRun_of_done ht
    obtain ⟨hs, -⟩ := stack_of_done ht
    exact ⟨by rw [hglobal, hs]; exact ih.global, by rw [hsid, hs]; exact ih.sid,
      hs ▸ ih.outputs⟩

/-- If no node goes by a key of the engine, every frame shows the run's data and session. -/
theorem Reaches.shows {eng : Engine σ} {p : Pipe} {r : Run} {log : List (String × Json)}
    (h : eng.Reaches p r log) (hp : ∀ q, p.Inner q → ∀ n ∈ q.nodes, n.name ∉ engineKeys) :
    ∀ f ∈ r.stack.frames, Keyed.get? f.data "global" = some (.obj r.global) ∧
      Keyed.get? f.data "sid" = some (.str r.sid) := by
  obtain ⟨hglobal, hsid, -⟩ := h.faithful
  have hunnamed {key : String} (hkey : key ∈ engineKeys) : Unnamed key r.stack.frames := by
    intro f hf n hn hname
    exact hp f.pipe (h.atRest.stack.inner f hf) n hn (hname ▸ hkey)
  intro f hf
  exact ⟨hglobal.of_mem (hunnamed (by decide)) f hf, hsid.of_mem (hunnamed (by decide)) f hf⟩

end Engine

def Call.context? : Call → Option CallContext
  | .process _ _ c | .request _ c | .chat _ c => some c
  | .render _ => none
  | .hook call => some call.context

theorem Call.Of.context {r : Run} {n : Node Pipe} {call : Call} (h : call.Of r n)
    {c : CallContext} (hc : call.context? = some c) : c = r.callContext n := by
  cases h with
  | process | request | chat | hook => exact (Option.some.inj hc).symm
  | render => cases hc

/-- In every state of every run of the pipe, services get the global data and the session of the
run, and templates see them in every frame, unless a node of that frame's pipe or of one below is
called so. The first pipe shows the latest output of each of its nodes, unless the engine writes
under the name of the node, and the latest output of all. Recording an output changes the visible
input only for a node that is called so. -/
theorem Engine.data_faithful (eng : Engine σ) (w : σ) {before after : List (Action (σ × List Call))}
    {act : Action (σ × List Call)} {id : String} {p : Pipe}
    (hbegins : act.Begins (eng.traced.play (.init (w, [])) before) id p) :
    let s := eng.traced.play (.init (w, [])) (before ++ act :: after)
    (∀ run, s.HasRun run → run.id = id → ∃ log, eng.traced.Reaches p run log) ∧
    (∀ run log, eng.traced.Reaches p run log →
      Shows "global" (.obj run.global) run.stack.frames ∧
      Shows "sid" (.str run.sid) run.stack.frames ∧
      (∀ name ∉ engineKeys,
        Keyed.get? run.stack.root.data name = Keyed.get? log.reverse name) ∧
      Keyed.get? run.stack.root.data "output" =
        some ((log.getLast?.map Prod.snd).getD .null)) ∧
    (∀ next, (∀ v, next ≠ .outside v) →
      Made (fun call => ∃ h a run left, next = .turn h ∧
        s.hands h = some ⟨a, .running run left⟩ ∧
        ∀ c, call.context? = some c → c.global = run.global ∧ c.sid = run.sid)
        s.world (eng.traced.step s next).world) ∧
    ∀ (f : Frame) (node : String) (output : Json),
      Keyed.get? (f.record node output).data "input" =
        if node = "input" then some output else Keyed.get? f.data "input" := by
  intro s
  refine ⟨fun run hrun hid => eng.traced.reaches_of_begins _ hbegins hrun hid,
    fun run log hrun => ?_, fun next hnext => ?_, fun f node output => ?_⟩
  · obtain ⟨hglobal, hsid, hnodes, hlatest⟩ := hrun.faithful
    exact ⟨hglobal, hsid, hnodes, hlatest⟩
  · refine (eng.made_step s hnext).mono fun call hcall => ?_
    cases hcall with
    | turn hx hcalls =>
      obtain ⟨n, -, hof⟩ := hcalls
      refine ⟨_, _, _, _, rfl, hx, fun c hc => ?_⟩
      rw [hof.context hc]
      exact ⟨rfl, rfl⟩
  · split
    next heq =>
      subst heq
      exact Frame.get?_record_self f _ output
    next hne => exact Frame.get?_record_of_ne (Ne.symm hne) (by decide)

def Hand.atWork? (x : Hand) : Option Run :=
  match x.stage with
  | .running run _ => some run
  | _ => none

theorem System.hasRun_of_atWork {s : System σ} {h : Nat} {run : Run}
    (hrun : (s.hands h).bind Hand.atWork? = some run) : s.HasRun run := by
  obtain ⟨⟨a, stage⟩, hx, hwork⟩ := Option.bind_eq_some_iff.mp hrun
  cases stage with
  | running run' left =>
    cases hwork
    exact .running hx
  | idle | ended | settled => cases hwork

def maskingCase : Definition :=
  ⟨none, none,
    [{ plainNode "global" with process := some ⟨"make", .str "other"⟩ },
      { plainNode "tell" with process := some ⟨"tell", .str "done"⟩ }],
    none, none, none, none, none⟩

def maskingDefinition : Definition :=
  ⟨none, some "main", [{ plainNode "route" with cases := some [("default", maskingCase)] }], none,
    none, none, none, none⟩

def maskingSystem : System (Nat × List Call) :=
  countingEngine.traced.play (.init (0, []))
    [.start "r" maskingDefinition.built, .withGlobal 0 [("k", .int 1)], .exec 0 [], .turn 0,
      .turn 0]

theorem faithful_maskingSystem :
    ∃ run log, maskingSystem.HasRun run ∧ run.stack.frames.length = 2 ∧
      countingEngine.traced.Reaches maskingDefinition.built run log ∧
      Shows "global" (.obj run.global) run.stack.frames ∧
      Keyed.get? run.stack.root.data "output" =
        some ((log.getLast?.map Prod.snd).getD .null) := by
  have hbegins : Action.Begins (System.init ((0, []) : Nat × List Call))
      (.start "r" maskingDefinition.built) "r" maskingDefinition.built :=
    .start (by simp [System.init])
  have hwork : ((maskingSystem.hands 0).bind Hand.atWork?).map (fun run =>
      (run.id, run.stack.frames.length)) = some ("r", 2) := by decide +kernel
  obtain ⟨run, hrun, hshape⟩ := Option.map_eq_some_iff.mp hwork
  obtain ⟨hid, hlength⟩ := Prod.ext_iff.mp hshape
  obtain ⟨hreaches, hfaithful, -⟩ := @Engine.data_faithful _ countingEngine 0 []
    [.withGlobal 0 [("k", .int 1)], .exec 0 [], .turn 0, .turn 0] _ _ _ hbegins
  obtain ⟨log, hlog⟩ := hreaches run (System.hasRun_of_atWork hrun) hid
  obtain ⟨hglobal, -, -, hlatest⟩ := hfaithful run log hlog
  exact ⟨run, log, System.hasRun_of_atWork hrun, hlength, hlog, hglobal, hlatest⟩

/-- Behind that node templates no more see the global data, which services still get. -/
theorem masked_maskingSystem :
    Pipe.build "" maskingDefinition = .ok maskingDefinition.built ∧
      (∃ run, maskingSystem.HasRun run ∧ run.global = [("k", .int 1)] ∧
        Keyed.get? run.stack.top.data "global" = some (.str "other")) ∧
      ((countingEngine.traced.step maskingSystem (.turn 0)).world.2.getLast?.bind
        Call.context?).map (·.global) = some [("k", .int 1)] := by
  have hbuilt := Definition.build_built (d := maskingDefinition) (by decide +kernel)
  have hwork : ((maskingSystem.hands 0).bind Hand.atWork?).map (fun run =>
      (run.global, Keyed.get? run.stack.top.data "global")) =
        some ([("k", .int 1)], some (.str "other")) := by decide +kernel
  obtain ⟨run, hrun, hshape⟩ := Option.map_eq_some_iff.mp hwork
  obtain ⟨hglobal, hmasked⟩ := Prod.ext_iff.mp hshape
  have hcall : ((countingEngine.traced.step maskingSystem (.turn 0)).world.2.getLast?.bind
      Call.context?).map (·.global) = some [("k", .int 1)] := by decide +kernel
  exact ⟨hbuilt, ⟨run, System.hasRun_of_atWork hrun, hglobal, hmasked⟩, hcall⟩

end Pipework
