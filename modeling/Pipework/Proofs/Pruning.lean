import Mathlib.Data.List.Induction
import Pipework.Proofs.Exclusion
import Pipework.Proofs.Withdrawal

/-!
# What pruning takes

Pruning takes the free entries that have waited for at least the given time, and no others. The time
counts from the last parking of the run: while its entry stays in the store, nothing but the lease
changes. A client who has a run in hand does not notice the pruning.
-/

namespace Pipework

variable {σ : Type}

def Entry.age (e : Entry) (now : Instant) : Int := now.toNanos - e.since.toNanos

namespace ParkedRuns

variable {s : ParkedRuns} {now : Instant} {maxAge : Int}

theorem isStale_iff {e : Entry} :
    isStale now maxAge e = true ↔ e.lease = none ∧ maxAge ≤ e.age now := by
  have hage : e.since.toNanos ≤ now.toNanos - maxAge ↔ maxAge ≤ e.age now := by
    unfold Entry.age
    omega
  simp only [isStale, Bool.and_eq_true, Option.isNone_iff_eq_none, decide_eq_true_eq, hage]

theorem get?_prune_iff (h : s.Distinct) {id : String} {e : Entry} :
    (s.prune now maxAge).get? id = some e ↔
      s.get? id = some e ∧ (e.lease = none → e.age now < maxAge) := by
  rw [get?_prune h, Option.filter_eq_some_iff]
  refine and_congr_right fun _ => ?_
  rw [Bool.not_eq_true', ← Bool.not_eq_true, isStale_iff, not_and, Int.not_le]

theorem nodup_stale (h : s.Distinct) : (s.stale now maxAge).Nodup := Keyed.nodup_filter h _

theorem length_stale : (s.stale now maxAge).length = s.pruned now maxAge := by
  rw [stale, Keyed.keys, List.length_map, pruned, List.countP_eq_length_filter]

theorem size_prune : s.pruned now maxAge + (s.prune now maxAge).size = s.size := by
  rw [size, size, prune, pruned, ← List.countP_eq_length_filter]
  simpa using (List.length_eq_countP_add_countP fun p : String × Entry =>
    isStale now maxAge p.2).symm

theorem prune_prune (s : ParkedRuns) (now : Instant) (maxAge other : Int) :
    (s.prune now maxAge).prune now other = s.prune now (min maxAge other) := by
  have hstale (e : Entry) : (!isStale now other e && !isStale now maxAge e) =
      !isStale now (min maxAge other) e := by
    rw [← Bool.not_or, Bool.not_inj_iff, Bool.eq_iff_iff, Bool.or_eq_true, isStale_iff, isStale_iff,
      isStale_iff, ← and_or_left]
    refine and_congr_right fun _ => ?_
    omega
  simp only [prune, List.filter_filter, hstale]

theorem prune_again {longer : Int} (h : maxAge ≤ longer) :
    (s.prune now maxAge).prune now longer = s.prune now maxAge := by
  rw [prune_prune, Int.min_eq_left h]

theorem pruned_again {longer : Int} (h : maxAge ≤ longer) :
    (s.prune now maxAge).pruned now longer = 0 := by
  have hsize : (s.prune now maxAge).pruned now longer +
      ((s.prune now maxAge).prune now longer).size = (s.prune now maxAge).size := size_prune
  rw [prune_again h] at hsize
  omega

end ParkedRuns

namespace Engine

variable (eng : Engine σ)

structure Stores (s : System σ) (h : Nat) (e : Entry) : Prop where
  paused : ∃ a snapshot, s.hands h = some ⟨a, .ended (.ok (.suspended snapshot)) e.run⟩
  since : e.since = eng.services.now s.world

/-- The entry was stored when a call was settled, and from then on only its lease has changed. -/
def WaitsSince (w : σ) (acts : List (Action σ)) (id : String) (e : Entry) : Prop :=
  ∃ before h after, acts = before ++ .settle h :: after ∧
    eng.Stores (eng.play (.init w) before) h e ∧
    ∀ more, more <+: after → ∃ lease,
      (eng.play (.init w) (before ++ .settle h :: more)).parked.get? id =
        some { e with lease := lease }

variable {eng} {s : System σ} {id : String} {e : Entry}

theorem entry_of_abandon {a : Attempt} {p : ParkedRuns} (he : (a.abandon p).get? id = some e) :
    ∃ lease, p.get? id = some { e with lease := lease } := by
  rw [Attempt.get?_abandon] at he
  obtain ⟨e₀, he₀, rfl⟩ := Option.map_eq_some_iff.mp he
  refine ⟨e₀.lease, ?_⟩
  rw [he₀]
  split <;> rfl

theorem entry_of_takeUp {p p' : ParkedRuns} {other : String} {a : Attempt}
    (ht : Attempt.takeUp p other = .ok (a, p')) (he : p'.get? id = some e) :
    ∃ lease, p.get? id = some { e with lease := lease } := by
  obtain ⟨e₀, he₀, -, -, rfl⟩ := System.takeUp_ok ht
  rw [ParkedRuns.get?, Keyed.get?_put] at he
  split at he
  next hid =>
    cases he
    exact ⟨e₀.lease, hid ▸ he₀⟩
  next => exact ⟨e.lease, he⟩

theorem entry_of_settle {h : Nat} (he : (eng.step s (.settle h)).parked.get? id = some e) :
    s.parked.get? id = some e ∨ eng.Stores s h e := by
  simp only [step] at he
  split at he
  next a result run hx =>
    simp only [System.keep_parked, System.put_parked] at he
    have hf := a.filed result run (eng.services.now s.world) s.parked
    generalize a.file result run (eng.services.now s.world) s.parked = parked at hf he
    generalize a.report result run s.parked = events at hf
    cases hf with
    | @parked snapshot hr held =>
      rw [ParkedRuns.get?_park] at he
      split at he
      next =>
        cases he
        exact .inr ⟨⟨a, snapshot, hr ▸ hx⟩, rfl⟩
      next => exact .inl he
    | lost => exact .inl he
    | finished =>
      rw [ParkedRuns.get?_remove] at he
      split at he
      · cases he
      · exact .inl he
    | cancelled => exact .inl he
  · exact .inl he

/-- An entry was there before with another lease at most, unless this step stores it. -/
theorem entry_of_step (hs : s.Sound) {act : Action σ}
    (he : (eng.step s act).parked.get? id = some e) :
    (∃ lease, s.parked.get? id = some { e with lease := lease }) ∨
      ∃ h, act = .settle h ∧ eng.Stores s h e := by
  have same (he : s.parked.get? id = some e) :
      ∃ lease, s.parked.get? id = some { e with lease := lease } := ⟨e.lease, he⟩
  cases act with
  | settle h =>
    rcases entry_of_settle he with hkept | hstored
    · exact .inl (same hkept)
    · exact .inr ⟨h, rfl, hstored⟩
  | create other name =>
    simp only [step] at he
    split at he
    · exact .inl (same (s.begin_parked .. ▸ he))
    · exact .inl (same he)
  | start other p => exact .inl (same (s.begin_parked .. ▸ he))
  | takeUp other =>
    simp only [step] at he
    split at he
    next ht => exact .inl (entry_of_takeUp ht he)
    · exact .inl (same he)
  | withGlobal h global => exact .inl (same (s.amend_parked .. ▸ he))
  | withSid h sid => exact .inl (same (s.amend_parked .. ▸ he))
  | withToken h token => exact .inl (same (s.amend_parked .. ▸ he))
  | exec h input =>
    simp only [step] at he
    split at he <;> exact .inl (same he)
  | resume h answers =>
    simp only [step] at he
    split at he
    · split at he
      · exact .inl (entry_of_abandon he)
      · exact .inl (same he)
    · exact .inl (same he)
  | turn h =>
    simp only [step] at he
    split at he
    · split at he <;> exact .inl (same he)
    · exact .inl (same he)
  | drop h =>
    simp only [step] at he
    split at he
    · exact .inl (entry_of_abandon he)
    · exact .inl (same he)
  | close other =>
    simp only [step, System.keep_parked, ParkedRuns.get?_remove] at he
    split at he
    · cases he
    · exact .inl (same he)
  | prune maxAge => exact .inl (same ((ParkedRuns.get?_prune_iff hs.distinct).mp he).1)
  | register p => exact .inl (same he)
  | unregister other => exact .inl (same he)
  | outside w => exact .inl (same he)

/-- The time from which an entry waits is that of the last parking of its run. -/
theorem waitsSince_of_entry (w : σ) (acts : List (Action σ))
    (he : (eng.play (.init w) acts).parked.get? id = some e) : eng.WaitsSince w acts id e := by
  -- From the end: the last step has stored the entry, or the steps before it had it.
  induction acts using List.reverseRecOn generalizing e with
  | nil => cases he
  | append_singleton acts act ih =>
    have hstep : eng.play (.init w) (acts ++ [act]) = eng.step (eng.play (.init w) acts) act :=
      eng.play_append ..
    rcases entry_of_step (System.sound_play eng w acts) (hstep ▸ he) with
      ⟨lease, hbefore⟩ | ⟨h, rfl, hstored⟩
    · obtain ⟨before, h, after, rfl, hstored, hsince⟩ := ih hbefore
      refine ⟨before, h, after ++ [act], by simp, ⟨hstored.paused, hstored.since⟩, ?_⟩
      intro more hmore
      rcases List.prefix_concat_iff.mp hmore with rfl | hmore
      · rw [List.append_assoc, List.cons_append] at he
        exact ⟨e.lease, he⟩
      · exact hsince more hmore
    · refine ⟨acts, h, [], rfl, hstored, fun more hmore => ?_⟩
      obtain rfl := List.prefix_nil.mp hmore
      exact ⟨e.lease, he⟩

theorem begin_of_lent (hs : s.Sound) {h lease : Nat} (hl : s.Lent h id e lease) {a : Attempt}
    (hx : s.hands h = some ⟨a, .idle⟩) (answers : List Json) :
    (eng.step s (.resume h answers)).hands h = some
      ⟨a, .begin a eng.settings.maxSteps (a.run.answer eng.evaluator answers)⟩ := by
  obtain ⟨x, hx', -, hlease⟩ := hl.hand
  rw [hx] at hx'
  cases hx'
  cases hp : a.run.paused with
  | none =>
    rw [hs.lease_of_refused hx hp] at hlease
    cases hlease
  | some snapshot =>
    simp only [step, hx, hp]
    exact Function.update_self ..

theorem parked_of_lent (hs : s.Sound) {h lease : Nat} (hl : s.Lent h id e lease) {a : Attempt}
    {snapshot : Snapshot} {run : Run}
    (hx : s.hands h = some ⟨a, .ended (.ok (.suspended snapshot)) run⟩) :
    (eng.step s (.settle h)).parked.get? id = some ⟨run, none, eng.services.now s.world⟩ := by
  obtain ⟨x, hx', rfl, hlease⟩ := hl.hand
  rw [hx] at hx'
  cases hx'
  have hid : run.id = a.run.id := (hs.live hx (by simp)).1
  have held (lease' : Nat) (hlease' : a.lease = some lease') :
      s.parked.heldBy run.id lease' = true := by
    rw [hlease] at hlease'
    cases hlease'
    exact s.parked.heldBy_iff.mpr ⟨_, hid ▸ hl.entry, rfl⟩
  simp only [step, hx, System.keep_parked, System.put_parked, a.file_of_pause held]
  rw [← hid, ParkedRuns.get?_park_self]

theorem lent_prune (hs : s.Sound) {h : Nat} (hh : s.Holds h id) (now : Instant) (maxAge : Int) :
    System.Sound { s with parked := s.parked.prune now maxAge } ∧
      ∃ e lease, System.Lent { s with parked := s.parked.prune now maxAge } h id e lease := by
  obtain ⟨x, lease, hx, hid, hlease, hheld⟩ := hh
  obtain ⟨e, he, hel⟩ := s.parked.heldBy_iff.mp hheld
  have hkept : (s.parked.prune now maxAge).get? id = some e := by
    refine (ParkedRuns.get?_prune_iff hs.distinct).mpr ⟨he, fun hfree => ?_⟩
    rw [hel] at hfree
    cases hfree
  refine ⟨hs.removed rfl rfl rfl rfl (hs.distinct.prune now maxAge) fun id e he => ?_, e, lease,
    ⟨x, hx, hid, hlease⟩, ?_⟩
  · exact ((ParkedRuns.get?_prune_iff hs.distinct).mp he).1
  · rw [hkept, ← hel]

/-- Whatever the clients have done, each entry waits since its run was parked last, and pruning
takes just the free entries that have waited for at least the given time: the others stay as they
are, the number returned is that of the entries taken, and at the same instant nothing is left to be
taken by an age that is not lower. Whoever has an entry on lease keeps it: unless it is closed, the
run can be answered, and its next pause is parked. -/
theorem prune_takes_waiting (eng : Engine σ) (w : σ) (acts : List (Action σ)) (now : Instant)
    (maxAge : Int) :
    let s := eng.play (.init w) acts
    let kept := s.parked.prune now maxAge
    (∀ id e, s.parked.get? id = some e → eng.WaitsSince w acts id e) ∧
    (∀ id e, kept.get? id = some e ↔
      s.parked.get? id = some e ∧ ¬ (e.lease = none ∧ maxAge ≤ e.age now)) ∧
    (∃ taken : List String, taken.Nodup ∧ taken.length = s.parked.pruned now maxAge ∧
      ∀ id, id ∈ taken ↔ ∃ e, s.parked.get? id = some e ∧ e.lease = none ∧ maxAge ≤ e.age now) ∧
    s.parked.pruned now maxAge + kept.size = s.parked.size ∧
    (∀ longer, maxAge ≤ longer → kept.pruned now longer = 0 ∧ kept.prune now longer = kept) ∧
    ∀ h id, s.Holds h id → ∀ during, eng.Withholds id h { s with parked := kept } during →
      let t := eng.play { s with parked := kept } during
      t.Holds h id ∧
      (∀ a answers, t.hands h = some ⟨a, .idle⟩ → (eng.step t (.resume h answers)).hands h =
        some ⟨a, .begin a eng.settings.maxSteps (a.run.answer eng.evaluator answers)⟩) ∧
      ∀ a snapshot run, t.hands h = some ⟨a, .ended (.ok (.suspended snapshot)) run⟩ →
        (eng.step t (.settle h)).parked.get? id = some ⟨run, none, eng.services.now t.world⟩ := by
  intro s kept
  have hs : s.Sound := System.sound_play eng w acts
  refine ⟨fun id e => waitsSince_of_entry w acts, fun id e => ?_, ?_, ParkedRuns.size_prune,
    fun longer hle => ⟨ParkedRuns.pruned_again hle, ParkedRuns.prune_again hle⟩,
    fun h id hh during hw => ?_⟩
  · rw [ParkedRuns.get?_prune_iff hs.distinct, not_and, Int.not_le]
  · refine ⟨s.parked.stale now maxAge, ParkedRuns.nodup_stale hs.distinct, ParkedRuns.length_stale,
      fun id => ?_⟩
    simp only [ParkedRuns.mem_stale hs.distinct, ParkedRuns.isStale_iff]
  · obtain ⟨hsound, e, lease, hlent⟩ := lent_prune hs hh now maxAge
    obtain ⟨hsound', hlent'⟩ := lent_play hsound hlent hw
    refine ⟨?_, fun a answers hx => begin_of_lent hsound' hlent' hx answers,
      fun a snapshot run hx => parked_of_lent hsound' hlent' hx⟩
    obtain ⟨x, hx, hid, hlease⟩ := hlent'.hand
    exact ⟨x, lease, hx, hid, hlease, ParkedRuns.heldBy_iff _ |>.mpr ⟨_, hlent'.entry, rfl⟩⟩

end Engine

def crowdedActs : List (Action Nat) :=
  [.start "old" askingPipe, .exec 0 [], .turn 0, .turn 0, .settle 0, .drop 0,
    .start "held" askingPipe, .exec 1 [], .turn 1, .turn 1, .settle 1, .drop 1, .outside 60,
    .takeUp "held", .start "new" askingPipe, .exec 3 [], .turn 3, .turn 3, .settle 3, .drop 3]

def crowdedSystem : System Nat := countingEngine.play (.init 0) crowdedActs

def prunedSystem : System Nat :=
  { crowdedSystem with parked := crowdedSystem.parked.prune ⟨60, 0⟩ 30000000000 }

def Hand.pause? (x : Hand) : Option (Snapshot × Run) :=
  match x.stage with
  | .ended (.ok (.suspended snapshot)) run => some (snapshot, run)
  | _ => none

theorem Hand.pause?_eq_some {x : Hand} {snapshot : Snapshot} {run : Run}
    (h : x.pause? = some (snapshot, run)) :
    x = ⟨x.attempt, .ended (.ok (.suspended snapshot)) run⟩ := by
  obtain ⟨a, stage⟩ := x
  unfold pause? at h
  split at h
  next hstage =>
    cases h
    rw [show stage = _ from hstage]
  · cases h

theorem parked_prunedSystem :
    Keyed.keys crowdedSystem.parked.entries = ["old", "held", "new"] ∧
      Keyed.keys prunedSystem.parked.entries = ["held", "new"] ∧
      crowdedSystem.parked.pruned ⟨60, 0⟩ 30000000000 = 1 ∧ crowdedSystem.Holds 2 "held" ∧
      ∃ run, (countingEngine.play prunedSystem
        [.exec 2 [], .turn 2, .turn 2, .settle 2]).parked.get? "held" =
          some ⟨run, none, ⟨60, 0⟩⟩ := by
  have hhand : (crowdedSystem.hands 2).map (fun x => (x.attempt.run.id, x.attempt.lease)) =
      some ("held", some 1) := by decide +kernel
  have hheld : crowdedSystem.parked.heldBy "held" 1 = true := by decide +kernel
  obtain ⟨x, hx, hpair⟩ := Option.map_eq_some_iff.mp hhand
  obtain ⟨hid, hlease⟩ := Prod.ext_iff.mp hpair
  have hholds : crowdedSystem.Holds 2 "held" := ⟨x, 1, hx, hid, hlease, hheld⟩
  have hpaused : (((countingEngine.play prunedSystem [.exec 2 [], .turn 2, .turn 2]).hands 2).bind
      Hand.pause?).isSome = true := by decide +kernel
  obtain ⟨⟨snapshot, run⟩, hbind⟩ := Option.isSome_iff_exists.mp hpaused
  obtain ⟨y, hy, hpause⟩ := Option.bind_eq_some_iff.mp hbind
  rw [Hand.pause?_eq_some hpause] at hy
  have hnow : countingEngine.services.now
      (countingEngine.play prunedSystem [.exec 2 [], .turn 2, .turn 2]).world = ⟨60, 0⟩ := by
    decide +kernel
  obtain ⟨-, -, -, -, -, hlasts⟩ :=
    countingEngine.prune_takes_waiting 0 crowdedActs ⟨60, 0⟩ 30000000000
  obtain ⟨-, -, hparks⟩ := hlasts 2 "held" hholds [.exec 2 [], .turn 2, .turn 2]
    ⟨trivial, trivial, trivial, trivial⟩
  have hparked := hparks _ _ _ hy
  exact ⟨by decide +kernel, by decide +kernel, by decide +kernel, hholds, run, hnow ▸ hparked⟩

/-- A run that has waited for just the given time is taken, though it has not waited for longer. -/
theorem taken_askingSystem :
    let now := cancellingEngine.services.now askingSystem.world
    (∃ e, askingSystem.parked.get? "r" = some e ∧ e.lease = none ∧ ¬ 0 < e.age now) ∧
      (askingSystem.parked.prune now 0).get? "r" = none ∧ askingSystem.parked.pruned now 0 = 1 := by
  intro now
  have hentry : (askingSystem.parked.get? "r").map (fun e => (e.lease, e.age now)) =
      some (none, 0) := by
    decide +kernel
  obtain ⟨e, he, hpair⟩ := Option.map_eq_some_iff.mp hentry
  obtain ⟨hfree, hage⟩ := Prod.ext_iff.mp hpair
  have hnot : ¬ 0 < e.age now := by
    rw [show e.age now = 0 from hage]
    exact Int.lt_irrefl 0
  exact ⟨⟨e, he, hfree, hnot⟩, Option.isNone_iff_eq_none.mp (by decide +kernel), by decide +kernel⟩

end Pipework
