import Pipework.Proofs.Faithful
import Pipework.Proofs.Leases
import Pipework.Proofs.Twins

/-!
# What the output mapping of the first pipe decides

Two systems whose pipes differ in output mappings, and whose clients do the same, stay the same in
all but the values that runs come to. They part only where a pipe that is through would be run
again and one of the mappings fails.
-/

namespace Pipework

variable {σ : Type}

def Pipe.Twin (p q : Pipe) : Prop := ∃ output, q = p.withOutput output

theorem Pipe.Twin.refl (p : Pipe) : p.Twin p := ⟨p.output, p.withOutput_self.symm⟩

structure Attempt.Twin (a a' : Attempt) : Prop where
  run : a.run.Twin a'.run
  lease : a'.lease = a.lease
  token : a'.token = a.token

namespace Attempt.Twin

variable {a a' : Attempt}

theorem withGlobal (h : a.Twin a') (global : Keyed Json) :
    (a.withGlobal global).Twin (a'.withGlobal global) :=
  ⟨h.run.withGlobal global, h.lease, h.token⟩

theorem withSid (h : a.Twin a') (sid : String) : (a.withSid sid).Twin (a'.withSid sid) :=
  ⟨h.run.withSid sid, h.lease, h.token⟩

theorem withToken (h : a.Twin a') (token : String) :
    (a.withToken token).Twin (a'.withToken token) :=
  ⟨h.run, h.lease, rfl⟩

end Attempt.Twin

inductive Stage.Twin (ev : Evaluator) : Stage → Stage → Prop
  | idle : Twin ev .idle .idle
  | running {r r' : Run} (left : Nat) : r.Twin r' → Twin ev (.running r left) (.running r' left)
  | ended {r r' : Run} {result result' : Except RunError Ending} : r.Twin r' →
      r.EndsAlike ev result result' → Twin ev (.ended result r) (.ended result' r')
  | settled : Twin ev .settled .settled

structure Hand.Twin (ev : Evaluator) (x x' : Hand) : Prop where
  attempt : x.attempt.Twin x'.attempt
  stage : Stage.Twin ev x.stage x'.stage

structure Entry.Twin (e e' : Entry) : Prop where
  run : e.run.Twin e'.run
  lease : e'.lease = e.lease
  since : e'.since = e.since

structure ParkedRuns.Twin (s s' : ParkedRuns) : Prop where
  entries : ∀ id, Option.Rel Entry.Twin (s.get? id) (s'.get? id)
  leases : s'.leases = s.leases

structure System.Twin (ev : Evaluator) (s s' : System σ) : Prop where
  catalog : ∀ name, Option.Rel Pipe.Twin (Keyed.get? s.catalog name) (Keyed.get? s'.catalog name)
  parked : s.parked.Twin s'.parked
  made : s'.made = s.made
  hands : ∀ h, Option.Rel (Hand.Twin ev) (s.hands h) (s'.hands h)
  ids : s'.ids = s.ids
  world : s'.world = s.world

inductive Action.Twin : Action σ → Action σ → Prop
  | start (id : String) {p q : Pipe} : p.Twin q → Twin (.start id p) (.start id q)
  | register {p q : Pipe} : p.Twin q → Twin (.register p) (.register q)
  | same (act : Action σ) : Twin act act

def System.Parts (ev : Evaluator) (s s' : System σ) (h : Nat) : Prop :=
  ∃ a run left a' run', s.hands h = some ⟨a, .running run left⟩ ∧
    s'.hands h = some ⟨a', .running run' left⟩ ∧ run.Parts ev run'

namespace ParkedRuns.Twin

variable {s s' : ParkedRuns}

theorem put (h : s.Twin s') {e e' : Entry} (he : e.Twin e') (id : String) (leases : Nat) :
    ParkedRuns.Twin ⟨Keyed.put s.entries id e, leases⟩ ⟨Keyed.put s'.entries id e', leases⟩ where
  entries other := by
    simp only [ParkedRuns.get?, Keyed.get?_put]
    split
    · exact .some he
    · exact h.entries other
  leases := rfl

theorem heldBy (h : s.Twin s') (id : String) (lease : Nat) :
    s'.heldBy id lease = s.heldBy id lease := by
  have hentry := h.entries id
  unfold ParkedRuns.heldBy
  generalize s.get? id = e at hentry ⊢
  generalize s'.get? id = e' at hentry ⊢
  cases hentry with
  | none => rfl
  | some he => simp only [he.lease]

theorem park (h : s.Twin s') {run run' : Run} (hr : run.Twin run') (lease : Option Nat)
    (now : Instant) : (s.park run lease now).Twin (s'.park run' lease now) := by
  have hentry : Entry.Twin ⟨run, none, now⟩ ⟨run', none, now⟩ := ⟨hr, rfl, rfl⟩
  have hstored := h.put hentry run.id s.leases
  simp only [ParkedRuns.park, hr.id, h.leases, h.heldBy]
  cases lease with
  | none => exact hstored
  | some lease =>
    dsimp only
    split
    · exact hstored
    · exact h

theorem release (h : s.Twin s') (id : String) (lease : Nat) :
    (s.release id lease).Twin (s'.release id lease) where
  entries other := by
    rw [ParkedRuns.get?_release, ParkedRuns.get?_release]
    have hentry := h.entries other
    generalize s.get? other = e at hentry ⊢
    generalize s'.get? other = e' at hentry ⊢
    cases hentry with
    | none => exact .none
    | some he =>
      simp only [Option.map_some, he.lease]
      split
      · exact .some ⟨he.run, rfl, he.since⟩
      · exact .some he
  leases := by rw [ParkedRuns.leases_release, ParkedRuns.leases_release, h.leases]

theorem remove (h : s.Twin s') (id : String) : (s.remove id).Twin (s'.remove id) where
  entries other := by
    rw [ParkedRuns.get?_remove, ParkedRuns.get?_remove]
    split
    · exact .none
    · exact h.entries other
  leases := h.leases

theorem prune (h : s.Twin s') (hs : s.Distinct) (hs' : s'.Distinct) (now : Instant)
    (maxAge : Int) : (s.prune now maxAge).Twin (s'.prune now maxAge) where
  entries id := by
    rw [ParkedRuns.get?_prune hs, ParkedRuns.get?_prune hs']
    have hentry := h.entries id
    generalize s.get? id = e at hentry ⊢
    generalize s'.get? id = e' at hentry ⊢
    cases hentry with
    | none => exact .none
    | @some e e' he =>
      have hstale : ParkedRuns.isStale now maxAge e' = ParkedRuns.isStale now maxAge e := by
        simp only [ParkedRuns.isStale, he.lease, he.since]
      simp only [Option.filter_some, hstale]
      split
      · exact .some he
      · exact .none
  leases := h.leases

theorem abandon (h : s.Twin s') {a a' : Attempt} (ha : a.Twin a') :
    (a.abandon s).Twin (a'.abandon s') := by
  simp only [Attempt.abandon, ha.lease, ha.run.id]
  cases a.lease with
  | none => exact h
  | some lease => exact h.release a.run.id lease

theorem file (h : s.Twin s') {ev : Evaluator} {a a' : Attempt} (ha : a.Twin a') {run run' : Run}
    (hr : run.Twin run') {result result' : Except RunError Ending}
    (he : run.EndsAlike ev result result') (now : Instant) :
    (a.file result run now s).Twin (a'.file result' run' now s') := by
  have hremove := h.remove a.run.id
  -- A value and a mapping that fails both end the wait of the run.
  have hfinal {result : Except RunError Ending} (hf : run.Final result) (b : Attempt) (r : Run)
      (parked : ParkedRuns) : b.file result r now parked = parked.remove b.run.id := by
    obtain ⟨value, rfl⟩ | ⟨x, rfl⟩ := hf
    · rfl
    · rfl
  cases he with
  | final _ hf hf' =>
    rw [hfinal hf, hfinal hf', ha.run.id]
    exact hremove
  | same =>
    simp only [Attempt.file, ha.lease, ha.run.id]
    split
    · exact h.park hr a.lease now
    · exact hremove
    · exact h
    · exact hremove

theorem takeUp (h : s.Twin s') (id : String) :
    (∃ e, Attempt.takeUp s id = .error e ∧ Attempt.takeUp s' id = .error e) ∨
      ∃ a t a' t', Attempt.takeUp s id = .ok (a, t) ∧ Attempt.takeUp s' id = .ok (a', t') ∧
        a.Twin a' ∧ t.Twin t' := by
  have hentry := h.entries id
  simp only [Attempt.takeUp, ParkedRuns.checkout, h.leases]
  generalize s.get? id = e at hentry ⊢
  generalize s'.get? id = e' at hentry ⊢
  cases hentry with
  | none => exact .inl ⟨_, rfl, rfl⟩
  | @some e e' he =>
    obtain ⟨run, lease, since⟩ := e
    obtain ⟨run', lease', since'⟩ := e'
    obtain ⟨hr, hlease, hsince⟩ := he
    dsimp only at hr hlease hsince
    subst hlease hsince
    cases lease' with
    | some lease => exact .inl ⟨_, rfl, rfl⟩
    | none =>
      have hleased : Entry.Twin ⟨run, some (s.leases + 1), since'⟩
          ⟨run', some (s.leases + 1), since'⟩ := ⟨hr, rfl, rfl⟩
      have hparked := h.put hleased id (s.leases + 1)
      exact .inr ⟨_, _, _, _, rfl, rfl, ⟨hr, rfl, rfl⟩, hparked⟩

end ParkedRuns.Twin

theorem Stage.Twin.begin {ev : Evaluator} {a a' : Attempt} (ha : a.Twin a') (limit : Nat)
    {ready ready' : Except RunError Run} (h : Run.TwinResult ready ready') :
    Stage.Twin ev (.begin a limit ready) (.begin a' limit ready') := by
  cases h with
  | error e => exact .ended ha.run (.same _)
  | ok hr => exact .running limit hr

namespace System.Twin

variable {ev : Evaluator} {s s' : System σ}

theorem init (w : σ) : System.Twin ev (System.init w) (System.init w) where
  catalog _ := .none
  parked := ⟨fun _ => .none, rfl⟩
  made := rfl
  hands _ := .none
  ids := rfl
  world := rfl

theorem put (h : s.Twin ev s') {x x' : Option Hand} (hx : Option.Rel (Hand.Twin ev) x x')
    (k : Nat) : (s.put k x).Twin ev (s'.put k x') where
  catalog := h.catalog
  parked := h.parked
  made := h.made
  hands other := by
    simp only [System.put_hands, Function.update_apply]
    split
    · exact hx
    · exact h.hands other
  ids := h.ids
  world := h.world

theorem putHand (h : s.Twin ev s') {a a' : Attempt} (ha : a.Twin a') {stage stage' : Stage}
    (hstage : Stage.Twin ev stage stage') (k : Nat) :
    (s.put k (some ⟨a, stage⟩)).Twin ev (s'.put k (some ⟨a', stage'⟩)) :=
  h.put (.some ⟨ha, hstage⟩) k

theorem keep (h : s.Twin ev s') (events events' : List Event) :
    (s.keep events).Twin ev (s'.keep events') :=
  ⟨h.catalog, h.parked, h.made, h.hands, h.ids, h.world⟩

theorem withParked (h : s.Twin ev s') {parked parked' : ParkedRuns} (hp : parked.Twin parked') :
    System.Twin ev { s with parked := parked } { s' with parked := parked' } :=
  ⟨h.catalog, hp, h.made, h.hands, h.ids, h.world⟩

theorem withWorld (h : s.Twin ev s') (w : σ) :
    System.Twin ev { s with world := w } { s' with world := w } :=
  ⟨h.catalog, h.parked, h.made, h.hands, h.ids, rfl⟩

theorem hold (h : s.Twin ev s') {a a' : Attempt} (ha : a.Twin a') :
    (s.hold a).Twin ev (s'.hold a') where
  catalog := h.catalog
  parked := h.parked
  made := congrArg (· + 1) h.made
  hands other := by
    simp only [System.hold_hands, h.made, Function.update_apply]
    split
    · exact .some ⟨ha, .idle⟩
    · exact h.hands other
  ids := h.ids
  world := h.world

theorem begin (h : s.Twin ev s') {p q : Pipe} (hp : p.Twin q) (id : String) :
    (s.begin id p).Twin ev (s'.begin id q) := by
  obtain ⟨output, rfl⟩ := hp
  simp only [System.begin, h.ids]
  split
  · exact h
  · have hrun : (Run.start id p).Twin (Run.start id (p.withOutput output)) :=
      .of (r := .start id p) (.root (.root p [] "") output)
    have hs : System.Twin ev { s with ids := id :: s.ids } { s' with ids := id :: s.ids } :=
      ⟨h.catalog, h.parked, h.made, h.hands, rfl, h.world⟩
    exact hs.hold ⟨hrun, rfl, rfl⟩

theorem hand (h : s.Twin ev s') (k : Nat) :
    (s.hands k = none ∧ s'.hands k = none) ∨
      ∃ a stage a' stage', s.hands k = some ⟨a, stage⟩ ∧ s'.hands k = some ⟨a', stage'⟩ ∧
        a.Twin a' ∧ Stage.Twin ev stage stage' := by
  have hhand := h.hands k
  generalize s.hands k = x at hhand
  generalize s'.hands k = x' at hhand
  cases hhand with
  | none => exact .inl ⟨rfl, rfl⟩
  | some hx => exact .inr ⟨_, _, _, _, rfl, rfl, hx.attempt, hx.stage⟩

theorem amend (h : s.Twin ev s') {f : Attempt → Attempt}
    (hf : ∀ a a', a.Twin a' → (f a).Twin (f a')) (k : Nat) :
    (s.amend k f).Twin ev (s'.amend k f) := by
  obtain ⟨hx, hx'⟩ | ⟨a, stage, a', stage', hx, hx', ha, hstage⟩ := h.hand k
  · simp only [System.amend, hx, hx']
    exact h
  · simp only [System.amend, hx, hx']
    cases hstage with
    | idle => exact h.putHand (hf a a' ha) .idle k
    | running | ended | settled => exact h

theorem register (h : s.Twin ev s') {p q : Pipe} (hp : p.Twin q) :
    System.Twin ev { s with catalog := Catalog.insert s.catalog p }
      { s' with catalog := Catalog.insert s'.catalog q } where
  catalog name := by
    obtain ⟨output, rfl⟩ := hp
    have hid : (p.withOutput output).id = p.id := rfl
    simp only [Catalog.insert, Keyed.get?_put, hid]
    split
    · exact .some ⟨output, rfl⟩
    · exact h.catalog name
  parked := h.parked
  made := h.made
  hands := h.hands
  ids := h.ids
  world := h.world

theorem unregister (h : s.Twin ev s') (id : String) :
    System.Twin ev { s with catalog := Catalog.remove s.catalog id }
      { s' with catalog := Catalog.remove s'.catalog id } where
  catalog name := by
    by_cases hname : name = id
    · simp only [Catalog.remove, hname, Keyed.get?_erase_self]
      exact .none
    · simp only [Catalog.remove, Keyed.get?_erase_of_ne _ hname]
      exact h.catalog name
  parked := h.parked
  made := h.made
  hands := h.hands
  ids := h.ids
  world := h.world

end System.Twin

namespace Engine

variable (eng : Engine σ) {s s' : System σ}

theorem twin_exec (h : s.Twin eng.evaluator s') (k : Nat) (input : List Json) :
    (eng.step s (.exec k input)).Twin eng.evaluator (eng.step s' (.exec k input)) := by
  obtain ⟨hx, hx'⟩ | ⟨a, stage, a', stage', hx, hx', ha, hstage⟩ := h.hand k
  · simp only [step, hx, hx']
    exact h
  · simp only [step, hx, hx']
    cases hstage with
    | idle =>
      have hready := ha.run.restart eng.evaluator input
      exact h.putHand ha (.begin ha eng.settings.maxSteps hready) k
    | running | ended | settled => exact h

theorem twin_resume (h : s.Twin eng.evaluator s') (k : Nat) (answers : List Json) :
    (eng.step s (.resume k answers)).Twin eng.evaluator (eng.step s' (.resume k answers)) := by
  obtain ⟨hx, hx'⟩ | ⟨a, stage, a', stage', hx, hx', ha, hstage⟩ := h.hand k
  · simp only [step, hx, hx']
    exact h
  · simp only [step, hx, hx']
    cases hstage with
    | idle =>
      dsimp only
      rw [ha.run.paused]
      cases a.run.paused with
      | none => exact ((h.withParked (h.parked.abandon ha)).put .none k).keep _ _
      | some x =>
        have hready := ha.run.answer eng.evaluator answers
        exact h.putHand ha (.begin ha eng.settings.maxSteps hready) k
    | running | ended | settled => exact h

theorem twin_turn (h : s.Twin eng.evaluator s') (k : Nat) :
    (eng.step s (.turn k)).Twin eng.evaluator (eng.step s' (.turn k)) ∨
      System.Parts eng.evaluator s s' k := by
  obtain ⟨hx, hx'⟩ | ⟨a, stage, a', stage', hx, hx', ha, hstage⟩ := h.hand k
  · simp only [step, hx, hx']
    exact .inl h
  · simp only [step, hx, hx']
    cases hstage with
    | @running run run' left hr =>
      dsimp only
      rw [h.world, ha.token]
      obtain hturn | hparts := eng.turn_twin hr a.token s.world left
      · refine .inl ?_
        generalize eng.turn a.token ⟨⟨run, s.world⟩, left⟩ = t at hturn ⊢
        generalize eng.turn a.token ⟨⟨run', s.world⟩, left⟩ = t' at hturn ⊢
        cases hturn with
        | more w left hnext => exact (h.withWorld w).putHand ha (.running left hnext) k
        | done w hrun hends => exact (h.withWorld w).putHand ha (.ended hrun hends) k
      · exact .inr ⟨a, run, left, a', run', hx, hx', hparts⟩
    | idle | ended | settled => exact .inl h

theorem twin_settle (h : s.Twin eng.evaluator s') (k : Nat) :
    (eng.step s (.settle k)).Twin eng.evaluator (eng.step s' (.settle k)) := by
  have hnow : eng.services.now s'.world = eng.services.now s.world := by rw [h.world]
  obtain ⟨hx, hx'⟩ | ⟨a, stage, a', stage', hx, hx', ha, hstage⟩ := h.hand k
  · simp only [step, hx, hx']
    exact h
  · simp only [step, hx, hx', hnow]
    cases hstage with
    | ended hr hends =>
      have hfiled := h.parked.file ha hr hends (eng.services.now s.world)
      exact ((h.withParked hfiled).putHand ha .settled k).keep _ _
    | idle | running | settled => exact h

theorem twin_drop (h : s.Twin eng.evaluator s') (k : Nat) :
    (eng.step s (.drop k)).Twin eng.evaluator (eng.step s' (.drop k)) := by
  obtain ⟨hx, hx'⟩ | ⟨a, stage, a', stage', hx, hx', ha, hstage⟩ := h.hand k
  · simp only [step, hx, hx']
    exact h
  · simp only [step, hx, hx']
    exact (h.withParked (h.parked.abandon ha)).put .none k

theorem step_twin (hs : s.Sound) (hs' : s'.Sound) (h : s.Twin eng.evaluator s')
    {act act' : Action σ} (ha : act.Twin act') :
    (eng.step s act).Twin eng.evaluator (eng.step s' act') ∨
      ∃ k, act = .turn k ∧ System.Parts eng.evaluator s s' k := by
  cases ha with
  | start id hp => exact .inl (h.begin hp id)
  | register hp => exact .inl (h.register hp)
  | same act =>
    cases act with
    | create id name =>
      have hpipe := h.catalog name
      simp only [step]
      generalize Keyed.get? s.catalog name = p at hpipe ⊢
      generalize Keyed.get? s'.catalog name = p' at hpipe ⊢
      cases hpipe with
      | none => exact .inl h
      | some hp => exact .inl (h.begin hp id)
    | start id p => exact .inl (h.begin (.refl p) id)
    | takeUp id =>
      simp only [step]
      obtain ⟨e, ht, ht'⟩ | ⟨a, parked, a', parked', ht, ht', ha, hp⟩ := h.parked.takeUp id
      · rw [ht, ht']
        exact .inl h
      · rw [ht, ht']
        exact .inl (((h.withParked hp).hold ha).keep _ _)
    | withGlobal k global => exact .inl (h.amend (fun _ _ ha => ha.withGlobal global) k)
    | withSid k sid => exact .inl (h.amend (fun _ _ ha => ha.withSid sid) k)
    | withToken k token => exact .inl (h.amend (fun _ _ ha => ha.withToken token) k)
    | exec k input => exact .inl (eng.twin_exec h k input)
    | resume k answers => exact .inl (eng.twin_resume h k answers)
    | turn k => exact (eng.twin_turn h k).imp_right fun hparts => ⟨k, rfl, hparts⟩
    | settle k => exact .inl (eng.twin_settle h k)
    | drop k => exact .inl (eng.twin_drop h k)
    | close id => exact .inl ((h.withParked (h.parked.remove id)).keep _ _)
    | prune maxAge =>
      have hnow : eng.services.now s'.world = eng.services.now s.world := by rw [h.world]
      simp only [step, hnow]
      have hpruned := h.parked.prune hs.distinct hs'.distinct (eng.services.now s.world) maxAge
      exact .inl ((h.withParked hpruned).keep _ _)
    | register p => exact .inl (h.register (.refl p))
    | unregister id => exact .inl (h.unregister id)
    | outside w => exact .inl (h.withWorld w)

/-- Whatever the clients do, the systems are twins, or there is a first turn where runs part. -/
theorem play_twin (hs : s.Sound) (hs' : s'.Sound) (h : s.Twin eng.evaluator s')
    {acts acts' : List (Action σ)} (ha : List.Forall₂ Action.Twin acts acts') :
    (eng.play s acts).Twin eng.evaluator (eng.play s' acts') ∨
      ∃ before k after before' after', acts = before ++ .turn k :: after ∧
        acts' = before' ++ .turn k :: after' ∧
        (eng.play s before).Twin eng.evaluator (eng.play s' before') ∧
        System.Parts eng.evaluator (eng.play s before) (eng.play s' before') k := by
  -- On the actions of both; only a turn can part twins, and then it is the first that does.
  induction ha generalizing s s' with
  | nil => exact .inl h
  | @cons act act' acts acts' hfirst _ ih =>
    obtain hstep | ⟨k, rfl, hparts⟩ := eng.step_twin hs hs' h hfirst
    · have hsound := hs.change (eng.step_change s act)
      have hsound' := hs'.change (eng.step_change s' act')
      obtain hall | ⟨before, k, after, before', after', rfl, rfl, hbefore, hparts⟩ :=
        ih hsound hsound' hstep
      · exact .inl hall
      · exact .inr ⟨act :: before, k, after, act' :: before', after', rfl, rfl, hbefore, hparts⟩
    · cases hfirst with
      | same => exact .inr ⟨[], k, acts, [], acts', rfl, rfl, h, hparts⟩

/-- A failing output mapping ends the run before the jump is looked at. -/
theorem turn_lost {r : Run} {target : String} (h : r.Through eng.evaluator (some target))
    (ho : r.OutputFails eng.evaluator) {token : Option String} {w : σ}
    (hc : eng.isCancelled token w = false) (left : Nat) :
    ∃ x, eng.turn token ⟨⟨r, w⟩, left⟩ =
      .done (.error (.mapping r.stack.top.pipe.id r.id x)) ⟨r, w⟩ := by
  obtain ⟨spec, x, hspec, hx⟩ := ho
  have hgoto := h.goto
  refine ⟨x, ?_⟩
  rw [eng.turn_root (s := ⟨r, w⟩) hc h.current h.below]
  simp only [Run.closeRoot, Run.close, hgoto, hspec, hx]

/-- Two pipes that are built of definitions which differ only in the output mapping differ only in
it. If clients do the same with such pipes, then the systems are twins at every time: the runs stand
at the same nodes, have made the same calls in the same order, have been paused at the same points,
and come to different results only where the first pipe is through and does not jump. The exception
is a pipe that is through and jumps, where the output mapping of one of the two fails: there a run
whose mapping fails ends, and one whose mapping does not goes on. -/
theorem root_output (eng : Engine σ) (w : σ) {acts acts' : List (Action (σ × List Call))}
    (ha : List.Forall₂ Action.Twin acts acts') :
    (∀ fresh d p output, Pipe.build fresh d = .ok p →
      Pipe.build fresh { d with output := output } = .ok (p.withOutput output)) ∧
    (∀ (run : Run) target, run.Through eng.evaluator (some target) →
      ∀ token v left, eng.isCancelled token v = false →
      (run.OutputFails eng.evaluator → ∃ x, eng.turn token ⟨⟨run, v⟩, left⟩ =
        .done (.error (.mapping run.stack.top.pipe.id run.id x)) ⟨run, v⟩) ∧
      (¬ run.OutputFails eng.evaluator → eng.turn token ⟨⟨run, v⟩, left⟩ =
        match run.stack.top.pipe.indexOf? target with
        | some i => .more ⟨⟨run.withTop { run.stack.top with cursor := i }, v⟩, left⟩
        | none => .done
            (.error (.gotoTargetNotFound run.stack.top.pipe.id target run.id)) ⟨run, v⟩)) ∧
    ((eng.traced.play (.init (w, [])) acts).Twin eng.evaluator
        (eng.traced.play (.init (w, [])) acts') ∨
      ∃ before k after before' after', acts = before ++ .turn k :: after ∧
        acts' = before' ++ .turn k :: after' ∧
        (eng.traced.play (.init (w, [])) before).Twin eng.evaluator
          (eng.traced.play (.init (w, [])) before') ∧
        System.Parts eng.evaluator (eng.traced.play (.init (w, [])) before)
          (eng.traced.play (.init (w, [])) before') k) :=
  ⟨fun _ _ _ output hb => Pipe.build_withOutput hb output,
    fun _ _ hthrough _ _ left hc => ⟨fun hfails => eng.turn_lost hthrough hfails hc left,
      fun hresolves => eng.turn_again hthrough hresolves hc left⟩,
    eng.traced.play_twin (System.sound_init _) (System.sound_init _) (.init _) ha⟩

end Engine

def loopingEngine : Engine Nat where
  evaluator :=
    { render := fun t data =>
        let latest := match data with
          | .obj fields => (Keyed.get? fields "output").getD .null
          | _ => .null
        match t, latest with
        | "again", .int 0 => .ok (.str "a")
        | "again", _ => .ok .null
        | _, .int 0 => .error (.template t)
        | _, latest => .ok latest
      test := fun _ _ => .ok true }
  services := { countingServices with process := fun _ _ _ w => (.ok (.int w), w + 1) }
  settings := ⟨10, 0, 0⟩

def loopingDefinition : Definition :=
  ⟨none, some "main", [{ plainNode "a" with process := some ⟨"count", .null⟩ }], some "again", none,
    none, none, none⟩

def lateDefinition : Definition := { loopingDefinition with output := some (.str "late") }

/-- The first of the two is run twice. -/
theorem parted_loopingEngine :
    Pipe.build "" loopingDefinition = .ok loopingDefinition.built ∧
      Pipe.build "" lateDefinition = .ok lateDefinition.built ∧
      let first := loopingEngine.exec (.create "r" loopingDefinition.built) [] .empty 0
      let second := loopingEngine.exec (.create "r" lateDefinition.built) [] .empty 0
      first.1.isOk = true ∧ first.2.2 = 2 ∧ second.1.isOk = false ∧ second.2.2 = 1 :=
  ⟨Definition.build_built (by decide +kernel), Definition.build_built (by decide +kernel),
    by decide +kernel⟩

theorem twin_loopingEngine :
    let acts (p : Pipe) : List (Action (Nat × List Call)) := [.start "r" p, .exec 0 [], .turn 0]
    List.Forall₂ Action.Twin (acts loopingDefinition.built) (acts lateDefinition.built) ∧
      System.Twin loopingEngine.evaluator
        (loopingEngine.traced.play (.init (0, [])) (acts loopingDefinition.built))
        (loopingEngine.traced.play (.init (0, [])) (acts lateDefinition.built)) := by
  intro acts
  have hbuilt := Definition.build_built (d := loopingDefinition) (by decide +kernel)
  have hlate := Definition.build_built (d := lateDefinition) (by decide +kernel)
  have hpipe : loopingDefinition.built.Twin lateDefinition.built :=
    ⟨_, (Except.ok.inj ((Pipe.build_withOutput hbuilt _).symm.trans hlate)).symm⟩
  have hacts : List.Forall₂ Action.Twin (acts loopingDefinition.built)
      (acts lateDefinition.built) :=
    .cons (.start "r" hpipe) (.cons (.same _) (.cons (.same _) .nil))
  have hwork : (((loopingEngine.traced.play (.init (0, []))
      [.start "r" loopingDefinition.built, .exec 0 []]).hands 0).bind Hand.atWork?).map
        (·.current?.isSome) = some true := by decide +kernel
  obtain ⟨-, -, htwin | ⟨before, k, after, _, _, hsplit, -, -, hparts⟩⟩ :=
    loopingEngine.root_output 0 hacts
  · exact ⟨hacts, htwin⟩
  · -- The only turn is that of the process, which is not at the end of its pipe.
    obtain ⟨a, run, left, a', run', hx, -, target, hthrough, -⟩ := hparts
    rcases before with _ | ⟨first, _ | ⟨second, _ | ⟨third, before⟩⟩⟩
    · cases hsplit
    · cases hsplit
    · cases hsplit
      simp only [hx, Option.bind_some, Hand.atWork?, Option.map_some, hthrough.current] at hwork
      cases hwork
    · simp [acts] at hsplit

end Pipework
