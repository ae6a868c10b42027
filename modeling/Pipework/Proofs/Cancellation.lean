import Pipework.Proofs.Limit
import Pipework.Scripted
import Pipework.Template.Sole

/-!
# Cancelled runs stop

Between two nodes a run looks whether its token has been cancelled. A token may be cancelled before
the call, or by any call of a service. The node that made the call is finished and its result is
applied; then the call ends, whatever the run would have done next.
-/

namespace Pipework

variable {σ : Type}

namespace Services

variable (sv : Services σ)

def after (w : σ) : Call → σ
  | .process name args c => (sv.process name args c w).2
  | .request payload c => (sv.request payload c w).2
  | .chat request c => (sv.chat request c w).2
  | .render request => (sv.render request w).2
  | .hook call => sv.notify call w

def afterAll (w : σ) (calls : List Call) : σ := calls.foldl sv.after w

def Lasting (token : String) : Prop :=
  ∀ w call, sv.isCancelled token w = true → sv.isCancelled token (sv.after w call) = true

variable {sv} {token : String} {w : σ} {seen calls : List Call}

theorem Lasting.of_prefix (h : sv.Lasting token) (hseen : seen <+: calls)
    (hc : sv.isCancelled token (sv.afterAll w seen) = true) :
    sv.isCancelled token (sv.afterAll w calls) = true := by
  obtain ⟨rest, rfl⟩ := hseen
  induction rest using List.reverseRecOn with
  | nil => rwa [List.append_nil]
  | append_singleton rest call ih =>
    rw [← List.append_assoc, afterAll, List.foldl_append]
    exact h _ call ih

variable (sv w) in
def Evolved (v : σ × List Call) : Prop := v.1 = sv.afterAll w v.2

theorem Evolved.keep {v : σ × List Call} (h : sv.Evolved w v) {call : Call} {v' : σ}
    (hv : v' = sv.after v.1 call) : sv.Evolved w (v', v.2 ++ [call]) := by
  rw [Evolved, afterAll, List.foldl_append, hv, h]
  rfl

theorem evolved_agree (sv : Services σ) (w : σ) (run : String) :
    sv.traced.Agree sv.traced run id fun v v' => sv.Evolved w v ∧ v = v' where
  process hv _ _ _ _ := by
    obtain ⟨h, rfl⟩ := hv
    exact ⟨rfl, h.keep rfl, rfl⟩
  request hv _ _ _ := by
    obtain ⟨h, rfl⟩ := hv
    exact ⟨rfl, h.keep rfl, rfl⟩
  chat hv _ _ _ := by
    obtain ⟨h, rfl⟩ := hv
    exact ⟨rfl, h.keep rfl, rfl⟩
  render hv _ := by
    obtain ⟨h, rfl⟩ := hv
    exact ⟨rfl, h.keep rfl, rfl⟩
  notify hv _ _ := by
    obtain ⟨h, rfl⟩ := hv
    exact ⟨h.keep rfl, rfl⟩
  now hv := by rw [hv.2]

end Services

def Loop.calls (l : Loop (σ × List Call)) : List Call := l.scene.world.2

def Attempt.answered (ev : Evaluator) (a : Attempt) (answers : List Json) : Except RunError Run :=
  match a.run.paused with
  | none => .error (.notSuspended a.run.id)
  | some _ => a.run.answer ev answers

namespace Engine

variable (eng : Engine σ)

/-- What the call comes to if it stops after the node that runs next: the node's error, or that of
the step on from it, or else that the run is cancelled. -/
inductive Finishes (l : Loop σ) : Except RunError Ending → Prop
  | failed {n : Node Pipe} {e : RunError} {s : Scene σ} :
      l.scene.run.current? = some n → eng.dispatch l.scene n = (.error e, s) →
      Finishes l (.error e)
  | astray {n : Node Pipe} {output : Json} {e : RunError} {s : Scene σ} :
      l.scene.run.current? = some n → eng.dispatch l.scene n = (.ok (.advance output), s) →
      s.run.pass n.name output = .error e → Finishes l (.error e)
  | stopped {n : Node Pipe} {output : Json} {s : Scene σ} {run : Run} :
      l.scene.run.current? = some n → eng.dispatch l.scene n = (.ok (.advance output), s) →
      s.run.pass n.name output = .ok run → Finishes l (.error (.cancelled l.scene.run.id))

structure Halts (eng : Engine (σ × List Call)) (token : Option String) (id : String)
    (heads : List (Loop (σ × List Call))) (seen : List Call)
    (result : Except RunError Ending) : Prop where
  begins : ∀ l ∈ heads, seen.length ≤ l.calls.length →
    eng.turn token l = .done (.error (.cancelled id)) l.scene
  before : seen = [] → result = .error (.cancelled id)
  during : seen ≠ [] → ∃ l ∈ heads, eng.runsNode token l = true ∧ l.scene.run.id = id ∧
    l.calls.length < seen.length ∧ seen.length ≤ (eng.turn token l).scene.world.2.length ∧
    eng.Finishes l result
  ends : ∃ e, result = .error e

variable {eng} {token : Option String}

theorem finishes_of_done {l : Loop (σ × List Call)} {result : Except RunError Ending}
    {s : Scene (σ × List Call)} (h : eng.traced.turn token l = .done result s)
    (hcalls : l.calls.length < s.world.2.length) :
    eng.traced.runsNode token l = true ∧ eng.traced.Finishes l result := by
  cases eng.traced.ends_of_turn h with
  | cancelled | exhausted | caseFailed | rootFailed | completed =>
    exact absurd hcalls (Nat.lt_irrefl _)
  | failed hc hn hleft hd => exact ⟨runsNode_of_current hc hn hleft, .failed hn hd⟩
  | astray hc hn hleft hd hp => exact ⟨runsNode_of_current hc hn hleft, .astray hn hd hp⟩
  | paused _ _ _ hd =>
    cases takes_of_dispatch hd with
    | suspend _ _ _ hs =>
      subst hs
      exact absurd hcalls (Nat.lt_irrefl _)

theorem finishes_of_more {l l' : Loop (σ × List Call)} (h : eng.traced.turn token l = .more l')
    (hcalls : l.calls.length < l'.calls.length) :
    eng.traced.runsNode token l = true ∧
      eng.traced.Finishes l (.error (.cancelled l.scene.run.id)) := by
  have hc := not_cancelled_of_more h
  obtain ⟨-, hruns⟩ := left_of_more h
  cases eng.traced.moves_of_turn h with
  | @advance n output s' f _ hn _ hd hf =>
    have hpass : s'.run.pass n.name output = .ok (s'.run.withTop f) := by simp only [Run.pass, hf]
    exact ⟨hruns.trans (wantsNode_eq_true.mpr ⟨hc, n, hn⟩), .stopped hn hd hpass⟩
  | enter _ _ hd =>
    obtain ⟨_, _, _, _, _, rfl⟩ := enter_of_dispatch hd
    exact absurd hcalls (Nat.lt_irrefl _)
  | leave | again => exact absurd hcalls (Nat.lt_irrefl _)

theorem evolved_of_turn {w : σ} {l : Loop (σ × List Call)}
    (h : eng.services.Evolved w l.scene.world) :
    (∀ l', eng.traced.turn token l = .more l' → eng.services.Evolved w l'.scene.world) ∧
      ∀ result s, eng.traced.turn token l = .done result s → eng.services.Evolved w s.world := by
  have hagree : eng.traced.services.Agree eng.traced.services l.scene.run.id id
      fun v v' => eng.services.Evolved w v ∧ v = v' := eng.services.evolved_agree w l.scene.run.id
  exact kept_of_turn hagree h token l.left

variable {t : String}

section

variable {w : σ} {seen : List Call} {l : Loop (σ × List Call)}
  {heads : List (Loop (σ × List Call))}
  {out : Except RunError Ending × Scene (σ × List Call)}

theorem Course.calls_prefix (h : eng.traced.Course token l heads out) :
    l.calls <+: out.2.world.2 := by
  obtain ⟨new, hnew, -⟩ := eng.made_runLoop token l
  rw [h.eq_runLoop]
  exact ⟨new, hnew.symm⟩

theorem Course.evolved (h : eng.traced.Course token l heads out)
    (hevolved : eng.services.Evolved w l.scene.world) : eng.services.Evolved w out.2.world := by
  induction h with
  | done ht => exact (evolved_of_turn hevolved).2 _ _ ht
  | more ht _ ih => exact ih ((evolved_of_turn hevolved).1 _ ht)

/-- Once the calls have been made that cancel the token, the next turn finds it cancelled. -/
theorem Course.cancelled_head (h : eng.traced.Course (some t) l heads out)
    (hlasting : eng.services.Lasting t) (hevolved : eng.services.Evolved w l.scene.world)
    (hseen : seen <+: out.2.world.2)
    (hc : eng.services.isCancelled t (eng.services.afterAll w seen) = true)
    (hlength : seen.length ≤ l.calls.length) :
    eng.traced.turn (some t) l = .done (.error (.cancelled l.scene.run.id)) l.scene := by
  have hprefix : seen <+: l.calls := List.prefix_of_prefix_length_le hseen h.calls_prefix hlength
  have hcancelled : eng.traced.isCancelled (some t) l.scene.world = true := by
    rw [traced_isCancelled, hevolved]
    exact hlasting.of_prefix hprefix hc
  exact eng.traced.turn_cancelled hcancelled l.left

theorem Course.halts (h : eng.traced.Course (some t) l heads out)
    (hlasting : eng.services.Lasting t) (hevolved : eng.services.Evolved w l.scene.world)
    (hseen : seen <+: out.2.world.2)
    (hc : eng.services.isCancelled t (eng.services.afterAll w seen) = true) :
    (∀ k ∈ heads, seen.length ≤ k.calls.length →
      eng.traced.turn (some t) k = .done (.error (.cancelled l.scene.run.id)) k.scene) ∧
    (seen.length ≤ l.calls.length → out.1 = .error (.cancelled l.scene.run.id)) ∧
    (l.calls.length < seen.length → ∃ k ∈ heads, eng.traced.runsNode (some t) k = true ∧
      k.scene.run.id = l.scene.run.id ∧ k.calls.length < seen.length ∧
      seen.length ≤ (eng.traced.turn (some t) k).scene.world.2.length ∧
      eng.traced.Finishes k out.1) := by
  induction h with
  | @done l result s ht =>
    have hhead := (Course.done ht).cancelled_head hlasting hevolved hseen hc
    refine ⟨fun k hk hlength => ?_, fun hlength => ?_, fun hlength => ?_⟩
    · obtain rfl := List.mem_singleton.mp hk
      exact hhead hlength
    · cases ht.symm.trans (hhead hlength)
      rfl
    · have hs : seen.length ≤ s.world.2.length := hseen.length_le
      obtain ⟨hruns, hfinishes⟩ := finishes_of_done ht (Nat.lt_of_lt_of_le hlength hs)
      exact ⟨l, List.mem_singleton_self l, hruns, rfl, hlength, by rwa [ht], hfinishes⟩
  | @more l l' heads out ht hcourse ih =>
    have hid := (eng.traced.moves_of_turn ht).sameRun.id
    obtain ⟨hbegins, hbefore, hduring⟩ := ih ((evolved_of_turn hevolved).1 l' ht) hseen
    rw [hid] at hbegins hbefore hduring
    have hhead := (Course.more ht hcourse).cancelled_head hlasting hevolved hseen hc
    -- A turn after which others follow has not found the token cancelled.
    have hearly : l.calls.length < seen.length := by
      by_contra hlate
      cases ht.symm.trans (hhead (Nat.le_of_not_lt hlate))
    refine ⟨fun k hk hlength => ?_, fun hlength => ?_, fun _ => ?_⟩
    · obtain rfl | hk := List.mem_cons.mp hk
      · exact absurd hlength (Nat.not_le.mpr hearly)
      · exact hbegins k hk hlength
    · exact absurd hlength (Nat.not_le.mpr hearly)
    · by_cases hlength : seen.length ≤ l'.calls.length
      · obtain ⟨hruns, hfinishes⟩ := finishes_of_more ht (Nat.lt_of_lt_of_le hearly hlength)
        refine ⟨l, List.mem_cons_self, hruns, rfl, hearly, by rwa [ht], ?_⟩
        rw [hbefore hlength]
        exact hfinishes
      · obtain ⟨k, hk, hrest⟩ := hduring (Nat.lt_of_not_le hlength)
        exact ⟨k, List.mem_cons_of_mem l hk, hrest⟩

end

structure Stops (eng : Engine σ) (a : Attempt) (t : String) (ready : Except RunError Run) (w : σ)
    (out : Except RunError Ending × ParkedRuns × σ) (calls : List Call) : Prop where
  unready {e : RunError} : ready = .error e → out.1 = .error e ∧ calls = []
  evolved : out.2.2 = eng.services.afterAll w calls
  halts {run : Run} : ready = .ok run → ∃ heads,
    eng.traced.Course (some t) ⟨⟨run, (w, [])⟩, eng.settings.maxSteps⟩ heads
      (eng.traced.drive (some t) ⟨run, (w, [])⟩) ∧
    ∀ seen, seen <+: calls →
      eng.services.isCancelled t (eng.services.afterAll w seen) = true →
        eng.traced.Halts (some t) a.run.id heads seen out.1

theorem Finishes.ends {eng : Engine σ} {l : Loop σ} {result : Except RunError Ending}
    (h : eng.Finishes l result) : ∃ e, result = .error e := by
  cases h with
  | failed | astray | stopped => exact ⟨_, rfl⟩

theorem stops_driveFrom (hlasting : eng.services.Lasting t) {a : Attempt} (ha : a.token = some t)
    {ready : Except RunError Run} (hready : ∀ run, ready = .ok run → run.id = a.run.id)
    (parked : ParkedRuns) (w : σ) :
    eng.Stops a t ready w (eng.conclude a parked (eng.driveFrom a ready w))
      (eng.traced.conclude a parked (eng.traced.driveFrom a ready (w, []))).2.2.2 := by
  rw [eng.conclude_traced a hready parked w []]
  cases ready with
  | error e =>
    refine ⟨?_, rfl, by simp⟩
    rintro _ ⟨⟩
    exact ⟨rfl, rfl⟩
  | ok run =>
    have hid := hready run rfl
    obtain ⟨heads, hcourse⟩ := Course.exists_course eng.traced (some t)
      ⟨⟨run, (w, [])⟩, eng.settings.maxSteps⟩
    simp only [driveFrom, ha]
    refine ⟨by simp, hcourse.evolved rfl, ?_⟩
    rintro _ ⟨⟩
    refine ⟨heads, hcourse, fun seen hseen hc => ?_⟩
    obtain ⟨hbegins, hbefore, hduring⟩ := hcourse.halts hlasting rfl hseen hc
    dsimp only at hbegins hbefore hduring
    rw [hid] at hbegins hbefore hduring
    refine ⟨hbegins, fun hnone => hbefore (by simp [hnone]),
      fun hsome => hduring (List.length_pos_of_ne_nil hsome), ?_⟩
    cases seen with
    | nil => exact ⟨_, hbefore (Nat.le_refl 0)⟩
    | cons call seen =>
      obtain ⟨_, _, _, _, _, _, hfinishes⟩ := hduring (Nat.zero_lt_succ _)
      exact hfinishes.ends

/-- Once the token of a call is cancelled, whether before the call or by a call of a service, no
node is run any more. The node at work is finished: if it fails, or the step on from it, the call
ends with that error, and otherwise with the error that the run is cancelled, even if there was
nothing left to run. Only the error of a run that cannot be made ready, because its input cannot be
bound or it waits for no answer, comes before that. -/
theorem cancellation_stops (eng : Engine σ) (hlasting : eng.services.Lasting t) {a : Attempt}
    (ha : a.token = some t) (values : List Json) (parked : ParkedRuns) (w : σ) :
    eng.Stops a t (a.run.restart eng.evaluator values) w (eng.exec a values parked w)
        (eng.traced.exec a values parked (w, [])).2.2.2 ∧
      eng.Stops a t (a.answered eng.evaluator values) w (eng.resume a values parked w)
        (eng.traced.resume a values parked (w, [])).2.2.2 := by
  constructor
  · exact eng.stops_driveFrom hlasting ha (fun _ hr => (Run.SameRun.of_restart hr).id) parked w
  · unfold Attempt.answered resume
    cases a.run.paused with
    | none =>
      refine ⟨?_, rfl, by simp⟩
      rintro _ ⟨⟩
      exact ⟨rfl, rfl⟩
    | some snapshot =>
      exact eng.stops_driveFrom hlasting ha (fun _ hr => (Run.SameRun.of_answer hr).id) parked w

end Engine

namespace Scripted.World

variable {w : World} {token : String} (h : token ∈ w.cancelled)
include h

theorem cancelled_takeProcess (script : Keyed (List Behaviour)) (name : String) (args : Json)
    (c : CallContext) : token ∈ (w.takeProcess script name args c).2.cancelled := by
  simp only [takeProcess, keep, cancel]
  split <;> exact List.mem_append_right _ h

theorem cancelled_runHook (hook : HookCall) : token ∈ (w.runHook hook).cancelled := by
  unfold runHook
  split
  · exact h
  · exact cancelled_takeProcess h ..

theorem cancelled_settle : token ∈ w.settle.cancelled := by
  have hfold (hooks : List HookCall) (v : World) (hv : token ∈ v.cancelled) :
      token ∈ (hooks.foldl runHook v).cancelled := by
    induction hooks generalizing v with
    | nil => exact hv
    | cons hook hooks ih => exact ih _ (cancelled_runHook hv hook)
  exact hfold w.waiting { w with waiting := [] } h

theorem cancelled_wait (b : Behaviour) : token ∈ (w.wait b).cancelled := by
  unfold wait
  split
  · exact h
  · exact cancelled_settle h

theorem cancelled_process (name : String) (args : Json) (c : CallContext) :
    token ∈ (w.process name args c).2.cancelled := by
  unfold process
  split
  · exact h
  next script _ =>
    have hv := cancelled_takeProcess h script name args c
    generalize w.takeProcess script name args c = taken at hv ⊢
    obtain ⟨b, v⟩ := taken
    exact cancelled_wait (w := v.record _) hv b

theorem cancelled_request (payload : Json) (c : CallContext) :
    token ∈ (w.request payload c).2.cancelled := by
  unfold request
  split
  · exact h
  · refine cancelled_wait ?_ _
    simp only [keep, cancel]
    split <;> exact List.mem_append_right _ h

theorem cancelled_chat (request : ChatRequest) (c : CallContext) :
    token ∈ (w.chat request c).2.cancelled := by
  unfold chat
  split
  · exact h
  · dsimp only
    split
    · exact cancelled_settle h
    · exact h

theorem cancelled_render (request : RenderRequest) : token ∈ (w.render request).2.cancelled := by
  unfold render
  split <;> exact h

theorem cancelled_notify (hook : HookCall) : token ∈ (w.notify hook).cancelled := by
  unfold notify
  dsimp only
  split
  · exact cancelled_settle h
  · exact h

end Scripted.World

theorem Scripted.services_lasting (token : String) : Scripted.services.Lasting token := by
  intro w call hc
  have h : token ∈ w.cancelled := List.contains_iff_mem.mp hc
  refine List.contains_iff_mem.mpr ?_
  cases call with
  | process name args c => exact Scripted.World.cancelled_process h name args c
  | request payload c => exact Scripted.World.cancelled_request h payload c
  | chat request c => exact Scripted.World.cancelled_chat h request c
  | render request => exact Scripted.World.cancelled_render h request
  | hook hook => exact Scripted.World.cancelled_notify h hook

def lastCallPipe : Pipe :=
  ⟨"main", "main", [⟨"route", "", 0, .switch [⟨"default",
    ⟨"inner", "inner", [⟨"last", "", 0, .process "tick" .null, none, none⟩], none, none, none, none,
      none, some "main", some "main"⟩⟩], none, none⟩], none, none, none, none, none, none, none⟩

def lastCallAttempt : Attempt := (Attempt.create "r" lastCallPipe).withToken "t"

def lastCallEngine : Engine Scripted.World := ⟨.templates, Scripted.services, ⟨10, 0, 0⟩⟩

def lastCallWorld : Scripted.World :=
  ⟨some [("tick", [⟨some "t", 0, .echo⟩])], none, none, none, [], [], [], [], [], 0, 0, 0⟩

theorem cancellation_stops_lastCall :
    ∃ heads, lastCallEngine.traced.Halts (some "t") "r" heads
        [.process "tick" .null ⟨"inner", "r", "last", "", []⟩]
        (lastCallEngine.exec lastCallAttempt [] ⟨[], 0⟩ lastCallWorld).1 ∧
      (lastCallEngine.exec lastCallAttempt [] ⟨[], 0⟩ lastCallWorld).1 =
        .error (.cancelled "r") := by
  obtain ⟨hexec, -⟩ := lastCallEngine.cancellation_stops (Scripted.services_lasting "t")
    (a := lastCallAttempt) rfl [] ⟨[], 0⟩ lastCallWorld
  obtain ⟨heads, -, hall⟩ := hexec.halts rfl
  exact ⟨heads, hall _ ⟨[], by rfl⟩ (by rfl), by rfl⟩

end Pipework
