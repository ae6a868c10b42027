import Pipework.Proofs.Alike
import Pipework.Proofs.System
import Pipework.Proofs.Unhooked

/-!
# Systems without progress hooks

Stripped of the hooks of its pipes and of its world, a system keeps its catalog, its hands, its
parked runs and its log. A step that is no turn leads from the stripped system to what the stripped
result is: it calls nothing, and of the world it reads no more than the clock.
-/

namespace Pipework

variable {σ : Type}

namespace Keyed

variable {α β : Type}

def mapValues (f : α → β) (m : Keyed α) : Keyed β := m.map fun p => (p.1, f p.2)

variable (f : α → β) (m : Keyed α) (key : String)

theorem get?_mapValues : get? (mapValues f m) key = (get? m key).map f := by
  induction m with
  | nil => rfl
  | cons p m ih =>
    obtain ⟨k, v⟩ := p
    simp only [mapValues, List.map_cons, get?] at ih ⊢
    split
    · rfl
    · exact ih

theorem put_mapValues (a : α) : put (mapValues f m) key (f a) = mapValues f (put m key a) := by
  induction m with
  | nil => rfl
  | cons p m ih =>
    obtain ⟨k, v⟩ := p
    simp only [mapValues, List.map_cons, put] at ih ⊢
    split
    · rfl
    · rw [ih, List.map_cons]

theorem erase_mapValues : erase (mapValues f m) key = mapValues f (erase m key) := by
  rw [mapValues, mapValues, erase, erase, List.filter_map]
  rfl

end Keyed

def Catalog.unhooked (c : Catalog) : Catalog := Keyed.mapValues Pipe.unhooked c

namespace Attempt

def bare (d : Instant → Instant) (a : Attempt) : Attempt := { a with run := a.run.bare d }

end Attempt

def Stage.bare (d : Instant → Instant) : Stage → Stage
  | .idle => .idle
  | .running run left => .running (run.bare d) left
  | .ended result run => .ended (result.map (Ending.redate d)) (run.bare d)
  | .settled => .settled

def Hand.bare (d : Instant → Instant) (x : Hand) : Hand := ⟨x.attempt.bare d, x.stage.bare d⟩

def Entry.bare (d : Instant → Instant) (e : Entry) : Entry := ⟨e.run.bare d, e.lease, d e.since⟩

def ParkedRuns.bare (d : Instant → Instant) (s : ParkedRuns) : ParkedRuns :=
  ⟨Keyed.mapValues (Entry.bare d) s.entries, s.leases⟩

def Event.bare (d : Instant → Instant) : Event → Event
  | .parked run => .parked (run.bare d)
  | .ended id lease result => .ended id lease (result.map (Ending.redate d))
  | event => event

/-- The system without hooks and without its world. Of the dates that it keeps it keeps what `d`
leaves of them. -/
def System.bare (d : Instant → Instant) (s : System σ) : System Unit where
  catalog := s.catalog.unhooked
  parked := s.parked.bare d
  made := s.made
  hands h := (s.hands h).map (Hand.bare d)
  ids := s.ids
  world := ()
  log := s.log.map (Event.bare d)

def Action.bare : Action σ → Action Unit
  | .create id pipe => .create id pipe
  | .start id pipe => .start id pipe.unhooked
  | .takeUp id => .takeUp id
  | .withGlobal h global => .withGlobal h global
  | .withSid h sid => .withSid h sid
  | .withToken h token => .withToken h token
  | .exec h input => .exec h input
  | .resume h answers => .resume h answers
  | .turn h => .turn h
  | .settle h => .settle h
  | .drop h => .drop h
  | .close id => .close id
  | .prune maxAge => .prune maxAge
  | .register pipe => .register pipe.unhooked
  | .unregister id => .unregister id
  | .outside _ => .outside ()

section

variable (d : Instant → Instant)

namespace Run

theorem withGlobal_bare (r : Run) (global : Keyed Json) :
    (r.bare d).withGlobal global = (r.withGlobal global).bare d := by
  simp only [bare, withGlobal, Stack.map, List.map_map]
  rfl

theorem withSid_bare (r : Run) (sid : String) :
    (r.bare d).withSid sid = (r.withSid sid).bare d := by
  simp only [bare, withSid, Stack.map, List.map_map]
  rfl

end Run

theorem Stage.begin_bare (a : Attempt) (limit : Nat) (ready : Except RunError Run) :
    (Stage.begin a limit ready).bare d = .begin (a.bare d) limit (ready.map (Run.bare d)) := by
  cases ready <;> rfl

theorem parkings_bare (id : String) (log : List Event) :
    parkings id (log.map (Event.bare d)) = parkings id log := by
  have hparks : (Event.parks id) ∘ Event.bare d = Event.parks id := by
    funext event
    cases event <;> rfl
  rw [parkings, List.countP_map, hparks]
  rfl

namespace ParkedRuns

variable (s : ParkedRuns)

theorem get?_bare (id : String) : (s.bare d).get? id = (s.get? id).map (Entry.bare d) :=
  Keyed.get?_mapValues ..

theorem heldBy_bare (id : String) (lease : Nat) :
    (s.bare d).heldBy id lease = s.heldBy id lease := by
  simp only [heldBy, get?_bare]
  cases s.get? id <;> rfl

theorem put_bare (id : String) (e : Entry) :
    ({ s with entries := Keyed.put s.entries id e } : ParkedRuns).bare d =
      { s.bare d with entries := Keyed.put (s.bare d).entries id (e.bare d) } := by
  simp only [bare, Keyed.put_mapValues]

theorem park_bare (run : Run) (lease : Option Nat) (now : Instant) :
    (s.bare d).park (run.bare d) lease (d now) = (s.park run lease now).bare d := by
  have hput := s.put_bare d run.id ⟨run, none, now⟩
  simp only [park, heldBy_bare, Run.bare_id]
  cases lease with
  | none => exact hput.symm
  | some lease =>
    dsimp only
    split
    · exact hput.symm
    · rfl

theorem release_bare (id : String) (lease : Nat) :
    (s.bare d).release id lease = (s.release id lease).bare d := by
  simp only [release, get?_bare]
  cases s.get? id with
  | none => rfl
  | some e =>
    obtain ⟨run, held, since⟩ := e
    cases held with
    | none => rfl
    | some held =>
      dsimp only [Option.map, Entry.bare]
      split
      · exact (s.put_bare d id ⟨run, none, since⟩).symm
      · rfl

theorem remove_bare (id : String) : (s.bare d).remove id = (s.remove id).bare d := by
  simp only [remove, bare, Keyed.erase_mapValues]

theorem prune_bare (now : Instant) (maxAge : Int) :
    (s.bare id).prune now maxAge = (s.prune now maxAge).bare id := by
  simp only [prune, bare, Keyed.mapValues, List.filter_map]
  rfl

theorem stale_bare (now : Instant) (maxAge : Int) :
    (s.bare id).stale now maxAge = s.stale now maxAge := by
  simp only [stale, bare, Keyed.mapValues, List.filter_map, Keyed.keys, List.map_map]
  rfl

end ParkedRuns

namespace Attempt

variable (a : Attempt) (s : ParkedRuns)

theorem takeUp_bare (id : String) :
    takeUp (s.bare d) id = (takeUp s id).map (Prod.map (bare d) (ParkedRuns.bare d)) := by
  simp only [takeUp, ParkedRuns.checkout, s.get?_bare]
  cases s.get? id with
  | none => rfl
  | some e =>
    obtain ⟨run, lease, since⟩ := e
    cases lease with
    | some lease => rfl
    | none =>
      have hput : Keyed.put (s.bare d).entries id
          (Entry.bare d ⟨run, some (s.leases + 1), since⟩) = _ := Keyed.put_mapValues ..
      dsimp only [Option.map, Entry.bare] at hput ⊢
      rw [show (s.bare d).leases = s.leases from rfl, hput]
      rfl

theorem abandon_bare : (a.bare d).abandon (s.bare d) = (a.abandon s).bare d := by
  obtain ⟨run, lease, token⟩ := a
  cases lease with
  | none => rfl
  | some lease => exact s.release_bare d run.id lease

theorem file_bare (result : Except RunError Ending) (run : Run) (now : Instant) :
    (a.bare d).file (result.map (Ending.redate d)) (run.bare d) (d now) (s.bare d) =
      (a.file result run now s).bare d := by
  cases result with
  | error e => cases e with
    | cancelled => rfl
    | _ => exact s.remove_bare d a.run.id
  | ok ending => cases ending with
    | completed value => exact s.remove_bare d a.run.id
    | suspended snapshot => exact s.park_bare d run a.lease now

theorem report_bare (result : Except RunError Ending) (run : Run) :
    (a.bare d).report (result.map (Ending.redate d)) (run.bare d) (s.bare d) =
      (a.report result run s).map (Event.bare d) := by
  obtain ⟨first, lease, token⟩ := a
  simp only [report, bare, ParkedRuns.heldBy_bare, Run.bare_id]
  cases result with
  | error e => rfl
  | ok ending => cases ending with
    | completed value => rfl
    | suspended snapshot => cases lease with
      | none => rfl
      | some lease =>
        dsimp only
        cases s.heldBy run.id lease <;> rfl

end Attempt

namespace System

variable (s : System σ)

@[simp] theorem bare_hands (h : Nat) : (s.bare d).hands h = (s.hands h).map (Hand.bare d) := rfl

@[simp] theorem bare_parked : (s.bare d).parked = s.parked.bare d := rfl

theorem put_bare (h : Nat) (x : Option Hand) :
    (s.put h x).bare d = (s.bare d).put h (x.map (Hand.bare d)) := by
  have hhands : (fun k => (Function.update s.hands h x k).map (Hand.bare d)) =
      Function.update (fun k => (s.hands k).map (Hand.bare d)) h (x.map (Hand.bare d)) :=
    Function.comp_update (Option.map (Hand.bare d)) s.hands h x
  simp only [bare, put, hhands]

theorem hold_bare (a : Attempt) : (s.hold a).bare d = (s.bare d).hold (a.bare d) :=
  put_bare d { s with made := s.made + 1 } s.made (some ⟨a, .idle⟩)

theorem keep_bare (events : List Event) :
    (s.keep events).bare d = (s.bare d).keep (events.map (Event.bare d)) := by
  simp only [bare, keep, List.map_append]

theorem begin_bare (id : String) (p : Pipe) :
    (s.begin id p).bare d = (s.bare d).begin id p.unhooked := by
  have hids : (s.bare d).ids = s.ids := rfl
  simp only [begin, hids]
  split
  · rfl
  · exact hold_bare d { s with ids := id :: s.ids } (.create id p)

theorem amend_bare (h : Nat) {f : Attempt → Attempt} (hf : ∀ a, f (a.bare d) = (f a).bare d) :
    (s.amend h f).bare d = (s.bare d).amend h f := by
  simp only [amend, bare_hands]
  cases s.hands h with
  | none => rfl
  | some x =>
    obtain ⟨a, stage⟩ := x
    cases stage with
    | idle =>
      dsimp only [Option.map, Hand.bare, Stage.bare]
      rw [put_bare, hf]
      rfl
    | running | ended | settled => rfl

end System

end

namespace Engine

variable (eng : Engine σ) (d : Instant → Instant)

def idle (w : σ) : Engine Unit where
  evaluator := eng.evaluator
  services :=
    { process := fun name _ _ _ => (.error (noProcess name), ())
      request := fun _ _ _ => (.error noRequest, ())
      chat := fun r _ _ => (⟨[], .error (noChat r.model)⟩, ())
      render := fun r _ => (.error (noRenderer r.node), ())
      notify := fun _ _ => ()
      isCancelled := fun _ _ => false
      now := fun _ => d (eng.services.now w) }
  settings := ⟨eng.settings.maxSteps, 0, 0⟩

variable (s : System σ) (h : Nat)

theorem step_exec_bare (input : List Json) :
    (eng.step s (.exec h input)).bare d =
      (eng.idle d s.world).step (s.bare d) (.exec h input) := by
  simp only [step, System.bare_hands]
  cases s.hands h with
  | none => rfl
  | some x =>
    obtain ⟨a, stage⟩ := x
    cases stage with
    | idle =>
      have hrestart : (a.bare d).run.restart eng.evaluator input = _ :=
        a.run.restart_bare d eng.evaluator input
      dsimp only [Option.map, Hand.bare, Stage.bare, idle]
      rw [System.put_bare, hrestart, ← Stage.begin_bare]
      rfl
    | running | ended | settled => rfl

theorem step_resume_bare (answers : List Json) :
    (eng.step s (.resume h answers)).bare d =
      (eng.idle d s.world).step (s.bare d) (.resume h answers) := by
  simp only [step, System.bare_hands]
  cases s.hands h with
  | none => rfl
  | some x =>
    obtain ⟨a, stage⟩ := x
    cases stage with
    | idle =>
      have hpaused : (a.bare d).run.paused = a.run.paused.map (Snapshot.redate d) := rfl
      have hanswer : (a.bare d).run.answer eng.evaluator answers = _ :=
        a.run.answer_bare d eng.evaluator answers
      dsimp only [Option.map, Hand.bare, Stage.bare, idle]
      rw [hpaused]
      cases a.run.paused with
      | none =>
        dsimp only [Option.map]
        rw [System.keep_bare, System.put_bare, System.bare_parked, Attempt.abandon_bare]
        rfl
      | some x =>
        dsimp only [Option.map]
        rw [System.put_bare, hanswer, ← Stage.begin_bare]
        rfl
    | running | ended | settled => rfl

theorem step_settle_bare :
    (eng.step s (.settle h)).bare d = (eng.idle d s.world).step (s.bare d) (.settle h) := by
  simp only [step, System.bare_hands]
  cases s.hands h with
  | none => rfl
  | some x =>
    obtain ⟨a, stage⟩ := x
    cases stage with
    | ended result run =>
      dsimp only [Option.map, Hand.bare, Stage.bare, idle]
      rw [System.keep_bare, System.put_bare, System.bare_parked, Attempt.file_bare,
        Attempt.report_bare]
      rfl
    | idle | running | settled => rfl

theorem step_drop_bare :
    (eng.step s (.drop h)).bare d = (eng.idle d s.world).step (s.bare d) (.drop h) := by
  simp only [step, System.bare_hands]
  cases s.hands h with
  | none => rfl
  | some x =>
    have hattempt : (x.bare d).attempt = x.attempt.bare d := rfl
    dsimp only [Option.map]
    rw [System.put_bare, System.bare_parked, hattempt, Attempt.abandon_bare]
    rfl

theorem step_takeUp_bare (id : String) :
    (eng.step s (.takeUp id)).bare d = (eng.idle d s.world).step (s.bare d) (.takeUp id) := by
  simp only [step, System.bare_parked, Attempt.takeUp_bare]
  cases Attempt.takeUp s.parked id with
  | error e => rfl
  | ok x =>
    obtain ⟨a, parked⟩ := x
    have hparkings : parkings id (s.bare d).log = parkings id s.log := parkings_bare d id s.log
    dsimp only [Except.map, Prod.map]
    rw [System.keep_bare, System.hold_bare, hparkings]
    rfl

theorem step_prune_bare (maxAge : Int) :
    (eng.step s (.prune maxAge)).bare id =
      (eng.idle id s.world).step (s.bare id) (.prune maxAge) := by
  have hevents (ids : List String) :
      (ids.map Event.pruned).map (Event.bare id) = ids.map .pruned := by
    rw [List.map_map]
    rfl
  simp only [step]
  rw [System.keep_bare, System.bare_parked, ParkedRuns.prune_bare, ParkedRuns.stale_bare, hevents]
  rfl

/-- Only turns call services; what else a step does it does on the stripped system. -/
theorem step_bare {act : Action σ} (hturn : ∀ h, act ≠ .turn h)
    (hprune : ∀ maxAge, act = .prune maxAge → d = id) :
    (eng.step s act).bare d = (eng.idle d s.world).step (s.bare d) act.bare := by
  cases act with
  | create id name =>
    have hget : Keyed.get? (s.bare d).catalog name =
        (Keyed.get? s.catalog name).map Pipe.unhooked := Keyed.get?_mapValues ..
    simp only [step, Action.bare, hget]
    cases Keyed.get? s.catalog name with
    | none => rfl
    | some p => exact s.begin_bare d id p
  | start id p => exact s.begin_bare d id p
  | takeUp id => exact eng.step_takeUp_bare d s id
  | withGlobal h global =>
    exact s.amend_bare d h fun a => congrArg (Attempt.mk · a.lease a.token)
      (a.run.withGlobal_bare d global)
  | withSid h sid =>
    exact s.amend_bare d h fun a => congrArg (Attempt.mk · a.lease a.token)
      (a.run.withSid_bare d sid)
  | withToken h token => exact s.amend_bare d h fun a => rfl
  | exec h input => exact eng.step_exec_bare d s h input
  | resume h answers => exact eng.step_resume_bare d s h answers
  | turn h => exact absurd rfl (hturn h)
  | settle h => exact eng.step_settle_bare d s h
  | drop h => exact eng.step_drop_bare d s h
  | close id =>
    simp only [step, Action.bare]
    rw [System.keep_bare, System.bare_parked, ParkedRuns.remove_bare]
    rfl
  | prune maxAge =>
    obtain rfl := hprune maxAge rfl
    exact eng.step_prune_bare s maxAge
  | register p =>
    have hput : (s.bare d).catalog.insert p.unhooked = (s.catalog.insert p).unhooked := by
      rw [Catalog.insert, Catalog.insert, p.unhooked_id]
      exact Keyed.put_mapValues ..
    simp only [step, Action.bare]
    rw [hput]
    rfl
  | unregister id =>
    have herase : (s.bare d).catalog.remove id = (s.catalog.remove id).unhooked :=
      Keyed.erase_mapValues ..
    simp only [step, Action.bare]
    rw [herase]
    rfl
  | outside w => rfl

end Engine

end Pipework
