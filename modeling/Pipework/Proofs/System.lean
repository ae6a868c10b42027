import Mathlib.Logic.Function.Basic
import Pipework.Proofs.Loop

/-!
# Many clients of one engine

Attempts of any number of clients on one store of parked runs, in any order of their steps. A call
is begun, takes its turns one at a time and is settled, and its lease ends in a step of its own.
What has happened to the runs is kept in a log.
-/

namespace Pipework

variable {σ : Type}

inductive Stage where
  | idle
  | running (run : Run) (left : Nat)
  | ended (result : Except RunError Ending) (run : Run)
  | settled

structure Hand where
  attempt : Attempt
  stage : Stage

inductive Event where
  | parked (run : Run)
  | opened (id : String) (lease : Option Nat) (serial : Nat)
  | ended (id : String) (lease : Option Nat) (result : Except RunError Ending)
  | closed (id : String)
  | pruned (id : String)

namespace Event

def parks (id : String) : Event → Bool
  | parked run => run.id == id
  | _ => false

def ends (id : String) : Event → Bool
  | ended _ _ (.ok (.suspended _)) => false
  | ended _ _ (.error (.cancelled _)) => false
  | ended other _ _ => other == id
  | closed other => other == id
  | pruned other => other == id
  | _ => false

theorem eq_of_ends_ended {id other : String} {lease : Option Nat} {result : Except RunError Ending}
    (h : ends id (ended other lease result) = true) : other = id := by
  unfold ends at h
  split at h <;> simp_all

end Event

def wasCancelled : Except RunError Ending → Bool
  | .error (.cancelled _) => true
  | _ => false

theorem Event.ends_of_cancelled {result : Except RunError Ending} (h : wasCancelled result = true)
    (id other : String) (lease : Option Nat) : ends id (.ended other lease result) = false := by
  unfold wasCancelled at h
  split at h
  · rfl
  · cases h

def parkings (id : String) (log : List Event) : Nat := log.countP (·.parks id)

/-- The state of an engine and of all its clients. Hands are numbered as they come. -/
structure System (σ : Type) where
  catalog : Catalog
  parked : ParkedRuns
  made : Nat
  hands : Nat → Option Hand
  ids : List String
  world : σ
  log : List Event

inductive Action (σ : Type) where
  | create (id pipe : String)
  | start (id : String) (pipe : Pipe)
  | takeUp (id : String)
  | withGlobal (h : Nat) (global : Keyed Json)
  | withSid (h : Nat) (sid : String)
  | withToken (h : Nat) (token : String)
  | exec (h : Nat) (input : List Json)
  | resume (h : Nat) (answers : List Json)
  | turn (h : Nat)
  | settle (h : Nat)
  | drop (h : Nat)
  | close (id : String)
  | prune (maxAge : Int)
  | register (pipe : Pipe)
  | unregister (id : String)
  | outside (w : σ)

def ParkedRuns.stale (s : ParkedRuns) (now : Instant) (maxAge : Int) : List String :=
  Keyed.keys (s.entries.filter fun p => isStale now maxAge p.2)

theorem ParkedRuns.mem_stale {s : ParkedRuns} (h : s.Distinct) {now : Instant} {maxAge : Int}
    {id : String} :
    id ∈ s.stale now maxAge ↔ ∃ e, s.get? id = some e ∧ isStale now maxAge e = true := by
  rw [stale, ← not_iff_not, ← Keyed.get?_eq_none_iff, Keyed.get?_filter h]
  simp [Option.filter_eq_none_iff, get?]

def Stage.begin (a : Attempt) (limit : Nat) : Except RunError Run → Stage
  | .error e => .ended (.error e) a.run
  | .ok run => .running run limit

def Attempt.report (a : Attempt) (result : Except RunError Ending) (run : Run)
    (parked : ParkedRuns) : List Event :=
  let held := match a.lease with
    | none => true
    | some lease => parked.heldBy run.id lease
  match result, held with
  | .ok (.suspended _), true => [.ended a.run.id a.lease result, .parked run]
  | _, _ => [.ended a.run.id a.lease result]

namespace System

def init (w : σ) : System σ := ⟨[], .empty, 0, fun _ => none, [], w, []⟩

def hold (s : System σ) (a : Attempt) : System σ :=
  { s with made := s.made + 1, hands := Function.update s.hands s.made (some ⟨a, .idle⟩) }

def put (s : System σ) (h : Nat) (x : Option Hand) : System σ :=
  { s with hands := Function.update s.hands h x }

def keep (s : System σ) (events : List Event) : System σ := { s with log := s.log ++ events }

def begin (s : System σ) (id : String) (pipe : Pipe) : System σ :=
  if id ∈ s.ids then s else { s with ids := id :: s.ids }.hold (.create id pipe)

def amend (s : System σ) (h : Nat) (f : Attempt → Attempt) : System σ :=
  match s.hands h with
  | some ⟨a, .idle⟩ => s.put h (some ⟨f a, .idle⟩)
  | _ => s

section

variable (s : System σ) (a : Attempt) (h : Nat) (x : Option Hand) (events : List Event)

@[simp] theorem hold_hands : (s.hold a).hands = Function.update s.hands s.made (some ⟨a, .idle⟩) :=
  rfl

@[simp] theorem hold_parked : (s.hold a).parked = s.parked := rfl

@[simp] theorem hold_ids : (s.hold a).ids = s.ids := rfl

@[simp] theorem hold_log : (s.hold a).log = s.log := rfl

@[simp] theorem put_hands : (s.put h x).hands = Function.update s.hands h x := rfl

@[simp] theorem put_parked : (s.put h x).parked = s.parked := rfl

@[simp] theorem put_ids : (s.put h x).ids = s.ids := rfl

@[simp] theorem put_log : (s.put h x).log = s.log := rfl

@[simp] theorem keep_hands : (s.keep events).hands = s.hands := rfl

@[simp] theorem keep_parked : (s.keep events).parked = s.parked := rfl

@[simp] theorem keep_ids : (s.keep events).ids = s.ids := rfl

@[simp] theorem keep_log : (s.keep events).log = s.log ++ events := rfl

end

section

variable (s : System σ) (id : String) (pipe : Pipe) (h : Nat) (f : Attempt → Attempt)

@[simp] theorem begin_catalog : (s.begin id pipe).catalog = s.catalog := by
  unfold begin
  split <;> rfl

@[simp] theorem begin_parked : (s.begin id pipe).parked = s.parked := by
  unfold begin
  split <;> rfl

@[simp] theorem begin_world : (s.begin id pipe).world = s.world := by
  unfold begin
  split <;> rfl

@[simp] theorem amend_catalog : (s.amend h f).catalog = s.catalog := by
  unfold amend
  split <;> rfl

@[simp] theorem amend_parked : (s.amend h f).parked = s.parked := by
  unfold amend
  split <;> rfl

@[simp] theorem amend_world : (s.amend h f).world = s.world := by
  unfold amend
  split <;> rfl

end

end System

namespace Engine

variable (eng : Engine σ)

/-- One step of the system. What cannot be done changes nothing. -/
def step (s : System σ) : Action σ → System σ
  | .create id pipe => match Keyed.get? s.catalog pipe with
    | some p => s.begin id p
    | none => s
  | .start id p => s.begin id p
  | .takeUp id => match Attempt.takeUp s.parked id with
    | .ok (a, parked) =>
      ({ s with parked := parked }.hold a).keep [.opened id a.lease (parkings id s.log)]
    | .error _ => s
  | .withGlobal h global => s.amend h (·.withGlobal global)
  | .withSid h sid => s.amend h (·.withSid sid)
  | .withToken h token => s.amend h (·.withToken token)
  | .exec h input => match s.hands h with
    | some ⟨a, .idle⟩ => s.put h (some
        ⟨a, .begin a eng.settings.maxSteps (a.run.restart eng.evaluator input)⟩)
    | _ => s
  | .resume h answers => match s.hands h with
    | some ⟨a, .idle⟩ => match a.run.paused with
      | none => ({ s with parked := a.abandon s.parked }.put h none).keep
          [.ended a.run.id a.lease (.error (.notSuspended a.run.id))]
      | some _ => s.put h (some
          ⟨a, .begin a eng.settings.maxSteps (a.run.answer eng.evaluator answers)⟩)
    | _ => s
  | .turn h => match s.hands h with
    | some ⟨a, .running run left⟩ => match eng.turn a.token ⟨⟨run, s.world⟩, left⟩ with
      | .more l => { s with world := l.scene.world }.put h
          (some ⟨a, .running l.scene.run l.left⟩)
      | .done result t => { s with world := t.world }.put h (some ⟨a, .ended result t.run⟩)
    | _ => s
  | .settle h => match s.hands h with
    | some ⟨a, .ended result run⟩ =>
      ({ s with parked := a.file result run (eng.services.now s.world) s.parked }.put h
        (some ⟨a, .settled⟩)).keep (a.report result run s.parked)
    | _ => s
  | .drop h => match s.hands h with
    | some x => { s with parked := x.attempt.abandon s.parked }.put h none
    | none => s
  | .close id => { s with parked := s.parked.remove id }.keep [.closed id]
  | .prune maxAge =>
    let now := eng.services.now s.world
    { s with parked := s.parked.prune now maxAge }.keep ((s.parked.stale now maxAge).map .pruned)
  | .register p => { s with catalog := Catalog.insert s.catalog p }
  | .unregister id => { s with catalog := Catalog.remove s.catalog id }
  | .outside w => { s with world := w }

def play (s : System σ) (acts : List (Action σ)) : System σ := acts.foldl eng.step s

theorem play_append (s : System σ) (acts acts' : List (Action σ)) :
    eng.play s (acts ++ acts') = eng.play (eng.play s acts) acts' :=
  List.foldl_append

end Engine

def Hand.Live (x : Hand) : Prop :=
  match x.stage with
  | .idle => x.attempt.lease.isSome → x.attempt.run.paused.isSome
  | .running run _ => run.id = x.attempt.run.id
  | .ended result run => run.id = x.attempt.run.id ∧
      ∀ snapshot, result = .ok (.suspended snapshot) → run.paused.isSome
  | .settled => False

structure Hand.Onward (x x' : Hand) : Prop where
  id : x'.attempt.run.id = x.attempt.run.id
  lease : x'.attempt.lease = x.attempt.lease
  open_ : x.stage ≠ .settled
  live : x.Live → x'.Live

theorem Hand.Onward.of_stage {a : Attempt} {stage stage' : Stage} (h : stage ≠ .settled)
    (hlive : Hand.Live ⟨a, stage⟩ → Hand.Live ⟨a, stage'⟩) :
    Hand.Onward ⟨a, stage⟩ ⟨a, stage'⟩ :=
  ⟨rfl, rfl, h, hlive⟩

namespace Attempt

variable (a : Attempt) (result : Except RunError Ending) (run : Run) (now : Instant)
  (s : ParkedRuns)

inductive Filed : ParkedRuns → List Event → Prop
  | parked {snapshot : Snapshot} (hr : result = .ok (.suspended snapshot))
      (held : ∀ lease, a.lease = some lease → s.heldBy run.id lease = true) :
      Filed (s.park run none now) [.ended a.run.id a.lease result, .parked run]
  | lost {snapshot : Snapshot} {lease : Nat} (hr : result = .ok (.suspended snapshot))
      (hl : a.lease = some lease) (held : s.heldBy run.id lease = false) :
      Filed s [.ended a.run.id a.lease result]
  | finished (hr : Event.ends a.run.id (.ended a.run.id a.lease result) = true) :
      Filed (s.remove a.run.id) [.ended a.run.id a.lease result]
  | cancelled {id : String} (hr : result = .error (.cancelled id)) :
      Filed s [.ended a.run.id a.lease result]

theorem filed : a.Filed result run now s (a.file result run now s) (a.report result run s) := by
  cases result with
  | error e => cases e with
    | cancelled id => exact .cancelled rfl
    | _ => exact .finished (by simp [Event.ends])
  | ok ending => cases ending with
    | completed value => exact .finished (by simp [Event.ends])
    | suspended snapshot =>
      obtain ⟨first, lease, token⟩ := a
      cases lease with
      | none => exact .parked rfl (by simp)
      | some lease =>
        simp only [file, report]
        cases hh : s.heldBy run.id lease with
        | true =>
          rw [s.park_of_held hh]
          exact .parked rfl (by simpa using hh)
        | false =>
          rw [s.park_of_not_held hh]
          exact .lost rfl rfl hh

theorem get?_abandon (id : String) :
    (a.abandon s).get? id = (s.get? id).map fun e =>
      if id = a.run.id ∧ e.lease = a.lease then { e with lease := none } else e := by
  unfold abandon
  cases a.lease with
  | none =>
    cases s.get? id with
    | none => rfl
    | some e =>
      obtain ⟨run, lease, since⟩ := e
      cases lease <;> simp
  | some lease => exact s.get?_release a.run.id id lease

@[simp] theorem leases_abandon : (a.abandon s).leases = s.leases := by
  unfold abandon
  split
  · exact s.leases_release ..
  · rfl

theorem distinct_abandon (h : s.Distinct) : (a.abandon s).Distinct := by
  unfold abandon
  split
  · exact h.release ..
  · exact h

end Attempt

inductive Change (eng : Engine σ) (s : System σ) : System σ → Prop
  | outer (c : Catalog) (w : σ) : Change eng s { s with catalog := c, world := w }
  | begun {id : String} (hid : id ∉ s.ids) (pipe : Pipe) :
      Change eng s ({ s with ids := id :: s.ids }.hold (.create id pipe))
  | opened {id : String} {a : Attempt} {parked : ParkedRuns}
      (ht : Attempt.takeUp s.parked id = .ok (a, parked)) :
      Change eng s (({ s with parked := parked }.hold a).keep
        [.opened id a.lease (parkings id s.log)])
  | onward {h : Nat} {x x' : Hand} (hx : s.hands h = some x) (hxx : x.Onward x') (w : σ) :
      Change eng s ({ s with world := w }.put h (some x'))
  | refused {h : Nat} {a : Attempt} (hx : s.hands h = some ⟨a, .idle⟩)
      (hp : a.run.paused = none) :
      Change eng s (({ s with parked := a.abandon s.parked }.put h none).keep
        [.ended a.run.id a.lease (.error (.notSuspended a.run.id))])
  | settled {h : Nat} {a : Attempt} {result : Except RunError Ending} {run : Run} {now : Instant}
      {parked : ParkedRuns} {events : List Event} (hx : s.hands h = some ⟨a, .ended result run⟩)
      (hf : a.Filed result run now s.parked parked events) :
      Change eng s (({ s with parked := parked }.put h (some ⟨a, .settled⟩)).keep events)
  | dropped {h : Nat} {x : Hand} (hx : s.hands h = some x) :
      Change eng s ({ s with parked := x.attempt.abandon s.parked }.put h none)
  | closed (id : String) : Change eng s ({ s with parked := s.parked.remove id }.keep [.closed id])
  | pruned (now : Instant) (maxAge : Int) :
      Change eng s ({ s with parked := s.parked.prune now maxAge }.keep
        ((s.parked.stale now maxAge).map .pruned))

theorem Change.begin {eng : Engine σ} (s : System σ) (id : String) (pipe : Pipe) :
    Change eng s (s.begin id pipe) := by
  unfold System.begin
  split
  · exact .outer s.catalog s.world
  next hid => exact .begun hid pipe

theorem Change.amend {eng : Engine σ} (s : System σ) (h : Nat) {f : Attempt → Attempt}
    (hf : ∀ a, (f a).run.id = a.run.id ∧ (f a).lease = a.lease ∧
      (f a).run.paused = a.run.paused) : Change eng s (s.amend h f) := by
  unfold System.amend
  split
  next a hx =>
    obtain ⟨hid, hl, hp⟩ := hf a
    have hlive : Hand.Live ⟨a, .idle⟩ → Hand.Live ⟨f a, .idle⟩ := by
      simp only [Hand.Live, hl, hp]
      exact id
    exact .onward hx ⟨hid, hl, by simp, hlive⟩ s.world
  · exact .outer s.catalog s.world

namespace Engine

variable (eng : Engine σ)

theorem step_change (s : System σ) (act : Action σ) : Change eng s (eng.step s act) := by
  have same : Change eng s s := .outer s.catalog s.world
  cases act with
  | create id pipe =>
    simp only [step]
    split
    · exact .begin s id _
    · exact same
  | start id p => exact .begin s id p
  | takeUp id =>
    simp only [step]
    split
    next ht => exact .opened ht
    · exact same
  | withGlobal h global => exact .amend s h fun a => ⟨rfl, rfl, rfl⟩
  | withSid h sid => exact .amend s h fun a => ⟨rfl, rfl, rfl⟩
  | withToken h token => exact .amend s h fun a => ⟨rfl, rfl, rfl⟩
  | exec h input =>
    simp only [step]
    split
    next a hx =>
      refine .onward hx (.of_stage (by simp) fun _ => ?_) s.world
      cases hr : a.run.restart eng.evaluator input with
      | error e => exact ⟨rfl, by simp⟩
      | ok run => exact (Run.SameRun.of_restart hr).id
    · exact same
  | resume h answers =>
    simp only [step]
    split
    next a hx =>
      split
      next hp => exact .refused hx hp
      next hp =>
        refine .onward hx (.of_stage (by simp) fun _ => ?_) s.world
        cases hr : a.run.answer eng.evaluator answers with
        | error e => exact ⟨rfl, by simp⟩
        | ok run => exact (Run.SameRun.of_answer hr).id
    · exact same
  | turn h =>
    simp only [step]
    split
    next a run left hx =>
      split
      next l ht =>
        have hid := (eng.moves_of_turn ht).sameRun.id
        have hlive : Hand.Live ⟨a, .running run left⟩ →
            Hand.Live ⟨a, .running l.scene.run l.left⟩ := fun hlive => hid.trans hlive
        exact .onward hx (.of_stage (by simp) hlive) _
      next result t ht =>
        have hid := (eng.sameRun_of_done ht).id
        obtain ⟨m, p, hr, hp⟩ := eng.run_of_done ht
        have hlive : Hand.Live ⟨a, .running run left⟩ → Hand.Live ⟨a, .ended result t.run⟩ :=
          fun hlive => ⟨hid.trans hlive, fun snapshot hs => by rw [hr, (hp snapshot hs).1]; rfl⟩
        exact .onward hx (.of_stage (by simp) hlive) _
    · exact same
  | settle h =>
    simp only [step]
    split
    next a result run hx => exact .settled hx (a.filed ..)
    · exact same
  | drop h =>
    simp only [step]
    split
    next x hx => exact .dropped hx
    · exact same
  | close id => exact .closed id
  | prune maxAge => exact .pruned _ maxAge
  | register p => exact .outer _ s.world
  | unregister id => exact .outer _ s.world
  | outside w => exact .outer s.catalog w

theorem play_induction {P : System σ → Prop} (keeps : ∀ s s', Change eng s s' → P s → P s')
    {s : System σ} (h : P s) (acts : List (Action σ)) : P (eng.play s acts) := by
  induction acts generalizing s with
  | nil => exact h
  | cons act acts ih => exact ih (keeps s _ (eng.step_change s act) h)

theorem play_turns {a : Attempt} {h : Nat} (l : Loop σ) {s : System σ}
    (hx : s.hands h = some ⟨a, .running l.scene.run l.left⟩) (hw : s.world = l.scene.world) :
    ∃ n, eng.play s (List.replicate n (.turn h)) =
      { s with world := (eng.runLoop a.token l).2.world }.put h
        (some ⟨a, .ended (eng.runLoop a.token l).1 (eng.runLoop a.token l).2.run⟩) := by
  induction l using eng.loop_induction a.token generalizing s with
  | done l result t ht =>
    refine ⟨1, ?_⟩
    rw [eng.runLoop_of_done ht]
    simp only [List.replicate, play, List.foldl, step, hx, hw, ht]
  | more l l' ht ih =>
    have hstep : eng.step s (.turn h) = { s with world := l'.scene.world }.put h
        (some ⟨a, .running l'.scene.run l'.left⟩) := by
      simp only [step, hx, hw, ht]
    have hx' : (eng.step s (.turn h)).hands h = some ⟨a, .running l'.scene.run l'.left⟩ := by
      rw [hstep, System.put_hands, Function.update_self]
    obtain ⟨n, hn⟩ := ih hx' (by rw [hstep]; rfl)
    refine ⟨n + 1, ?_⟩
    rw [List.replicate_succ, play, List.foldl_cons, ← play, hn, hstep, eng.runLoop_of_more ht]
    simp only [System.put, Function.update_idem]

theorem play_settle {a : Attempt} {h : Nat} {s : System σ} {result : Except RunError Ending}
    {run : Run} (hx : s.hands h = some ⟨a, .ended result run⟩) :
    (eng.play s [.settle h, .drop h]).parked =
        a.settle result run (eng.services.now s.world) s.parked ∧
      (eng.play s [.settle h, .drop h]).world = s.world := by
  simp [play, step, hx, System.put, System.keep, Attempt.settle]

def finishing (h n : Nat) : List (Action σ) := List.replicate n (.turn h) ++ [.settle h, .drop h]

theorem play_call {a : Attempt} {h : Nat} {s : System σ} {ready : Except RunError Run}
    (hx : s.hands h = some ⟨a, .begin a eng.settings.maxSteps ready⟩) :
    ∃ n, ((eng.play s (finishing h n)).parked, (eng.play s (finishing h n)).world) =
      (eng.conclude a s.parked (eng.driveFrom a ready s.world)).2 := by
  cases ready with
  | error e =>
    obtain ⟨hparked, hworld⟩ := eng.play_settle hx
    exact ⟨0, Prod.ext hparked hworld⟩
  | ok run =>
    obtain ⟨n, hn⟩ := eng.play_turns ⟨⟨run, s.world⟩, eng.settings.maxSteps⟩ hx rfl
    have hended : (eng.play s (List.replicate n (.turn h))).hands h = some ⟨a, .ended
        (eng.drive a.token ⟨run, s.world⟩).1 (eng.drive a.token ⟨run, s.world⟩).2.run⟩ := by
      rw [hn, System.put_hands, Function.update_self, drive_eq_runLoop]
    obtain ⟨hparked, hworld⟩ := eng.play_settle hended
    refine ⟨n, ?_⟩
    rw [finishing, play_append]
    refine Prod.ext (hparked.trans ?_) (hworld.trans ?_)
    · rw [hn]
      rfl
    · rw [hn]
      rfl

/-- A call whose steps follow each other is a call of `exec` or of `resume`. -/
theorem play_exec {a : Attempt} {h : Nat} {s : System σ} (hx : s.hands h = some ⟨a, .idle⟩)
    (input : List Json) :
    ∃ n, ((eng.play s (.exec h input :: finishing h n)).parked,
      (eng.play s (.exec h input :: finishing h n)).world) =
        (eng.exec a input s.parked s.world).2 := by
  have hstep : eng.step s (.exec h input) = s.put h (some
      ⟨a, .begin a eng.settings.maxSteps (a.run.restart eng.evaluator input)⟩) := by
    simp only [step, hx]
  have hbegun : (eng.step s (.exec h input)).hands h = some
      ⟨a, .begin a eng.settings.maxSteps (a.run.restart eng.evaluator input)⟩ := by
    rw [hstep, System.put_hands, Function.update_self]
  obtain ⟨n, hn⟩ := eng.play_call hbegun
  refine ⟨n, hn.trans ?_⟩
  rw [hstep]
  rfl

theorem play_resume {a : Attempt} {h : Nat} {s : System σ} (hx : s.hands h = some ⟨a, .idle⟩)
    (hp : a.run.paused.isSome) (answers : List Json) :
    ∃ n, ((eng.play s (.resume h answers :: finishing h n)).parked,
      (eng.play s (.resume h answers :: finishing h n)).world) =
        (eng.resume a answers s.parked s.world).2 := by
  obtain ⟨snapshot, hsnapshot⟩ := Option.isSome_iff_exists.mp hp
  have hstep : eng.step s (.resume h answers) = s.put h (some
      ⟨a, .begin a eng.settings.maxSteps (a.run.answer eng.evaluator answers)⟩) := by
    simp only [step, hx, hsnapshot]
  have hbegun : (eng.step s (.resume h answers)).hands h = some
      ⟨a, .begin a eng.settings.maxSteps (a.run.answer eng.evaluator answers)⟩ := by
    rw [hstep, System.put_hands, Function.update_self]
  obtain ⟨n, hn⟩ := eng.play_call hbegun
  refine ⟨n, hn.trans ?_⟩
  rw [hstep, resume, hsnapshot]
  rfl

end Engine

end Pipework
