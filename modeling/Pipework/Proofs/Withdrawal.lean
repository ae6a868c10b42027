import Pipework.Proofs.Conversation

/-!
# Attempts that come to nothing

An attempt that is let go of, or whose call is cancelled, leaves the parked runs as they were before
it was opened. While it lasts the entry stays as it was but for the lease, whatever else the clients
do short of closing the entry; when it is over the lease is gone too.
-/

namespace Pipework

variable {σ : Type}

namespace Attempt

inductive Amended (a : Attempt) : Attempt → Prop
  | same : Amended a a
  | global {b : Attempt} : Amended a b → ∀ global, Amended a (b.withGlobal global)
  | sid {b : Attempt} : Amended a b → ∀ sid, Amended a (b.withSid sid)
  | token {b : Attempt} : Amended a b → ∀ token, Amended a (b.withToken token)

theorem Amended.holds {a b : Attempt} (h : a.Amended b) :
    b.run.id = a.run.id ∧ b.lease = a.lease ∧ b.run.paused = a.run.paused := by
  induction h with
  | same => exact ⟨rfl, rfl, rfl⟩
  | global _ _ ih => exact ih
  | sid _ _ ih => exact ih
  | token _ _ ih => exact ih

theorem file_of_cancelled (a : Attempt) {result : Except RunError Ending}
    (h : wasCancelled result = true) (run : Run) (now : Instant) (s : ParkedRuns) :
    a.file result run now s = s := by
  unfold wasCancelled at h
  split at h
  · rfl
  · cases h

theorem get?_file_of_ne (a : Attempt) (result : Except RunError Ending) {run : Run}
    (hid : run.id = a.run.id) (now : Instant) (s : ParkedRuns) {other : String}
    (hne : other ≠ a.run.id) : (a.file result run now s).get? other = s.get? other := by
  have hrun : other ≠ run.id := by rwa [hid]
  have hf := a.filed result run now s
  generalize a.file result run now s = s' at hf ⊢
  generalize a.report result run s = events at hf
  cases hf with
  | parked => rw [ParkedRuns.get?_park, if_neg hrun]
  | lost => rfl
  | finished => rw [ParkedRuns.get?_remove, if_neg hne]
  | cancelled => rfl

theorem get?_abandon_of_ne (a : Attempt) (s : ParkedRuns) {other : String}
    (hne : other ≠ a.run.id) : (a.abandon s).get? other = s.get? other := by
  have hcond (e : Entry) : ¬ (other = a.run.id ∧ e.lease = a.lease) := fun h => hne h.1
  rw [get?_abandon]
  simp [hcond]

end Attempt

structure ParkedRuns.Restored (s s' : ParkedRuns) (id : String) (e : Entry) : Prop where
  entries : s'.entries = s.entries
  free : ∃ lease s'', Attempt.takeUp s' id = .ok (⟨e.run, some lease, none⟩, s'')

theorem ParkedRuns.takeUp_of_free {s : ParkedRuns} {id : String} {e : Entry}
    (he : s.get? id = some e) (hfree : e.lease = none) :
    Attempt.takeUp s id = .ok (⟨e.run, some (s.leases + 1), none⟩,
      ⟨Keyed.put s.entries id { e with lease := some (s.leases + 1) }, s.leases + 1⟩) := by
  simp only [Attempt.takeUp, s.checkout_of_free he hfree]

theorem ParkedRuns.Restored.of_entries {s s' : ParkedRuns} {id : String} {e : Entry}
    (he : s.get? id = some e) (hfree : e.lease = none) (h : s'.entries = s.entries) :
    s.Restored s' id e := by
  have he' : s'.get? id = some e := by rwa [get?, h]
  exact ⟨h, _, _, takeUp_of_free he' hfree⟩

theorem ParkedRuns.entries_abandon {s s' : ParkedRuns} {id : String} {a b : Attempt}
    (ht : Attempt.takeUp s id = .ok (a, s')) (hid : a.run.id = id) (hb : a.Amended b) :
    (b.abandon s').entries = s.entries := by
  obtain ⟨hrun, hlease, -⟩ := hb.holds
  unfold Attempt.takeUp at ht
  split at ht
  · cases ht
  next run lease s' hc =>
    cases ht
    have hrelease := s.entries_release_of_checkout hc
    rw [Attempt.abandon, hlease, hrun]
    dsimp only at hid ⊢
    rw [hid]
    exact hrelease

namespace Engine

variable (eng : Engine σ)

theorem conclude_cancelled (a : Attempt) (s : ParkedRuns)
    (r : Except RunError Ending × Scene σ) (hr : wasCancelled r.1 = true) :
    (eng.conclude a s r).2.1 = a.abandon s := by
  simp only [conclude, Attempt.settle, a.file_of_cancelled hr]

theorem exec_cancelled {a : Attempt} {input : List Json} {s : ParkedRuns} {w : σ}
    (h : wasCancelled (eng.exec a input s w).1 = true) :
    (eng.exec a input s w).2.1 = a.abandon s :=
  eng.conclude_cancelled a s _ h

theorem resume_cancelled {a : Attempt} {answers : List Json} {s : ParkedRuns} {w : σ}
    (h : wasCancelled (eng.resume a answers s w).1 = true) :
    (eng.resume a answers s w).2.1 = a.abandon s := by
  unfold resume at h ⊢
  split at h
  · rfl
  · exact eng.conclude_cancelled a s _ h

end Engine

def Action.hand? : Action σ → Option Nat
  | .withGlobal h _ => some h
  | .withSid h _ => some h
  | .withToken h _ => some h
  | .exec h _ => some h
  | .resume h _ => some h
  | .turn h => some h
  | .settle h => some h
  | .drop h => some h
  | _ => none

namespace System

/-- The hand has the entry on lease, and but for that the entry is as it was. -/
structure Lent (s : System σ) (h : Nat) (id : String) (e : Entry) (lease : Nat) : Prop where
  hand : ∃ x, s.hands h = some x ∧ x.attempt.run.id = id ∧ x.attempt.lease = some lease
  entry : s.parked.get? id = some { e with lease := some lease }

variable {s s' : System σ} {h : Nat} {id : String} {e : Entry} {lease : Nat}

theorem Lent.kept (hl : s.Lent h id e lease) (hh : s'.hands h = s.hands h)
    (hp : s'.parked.get? id = s.parked.get? id) : s'.Lent h id e lease := by
  refine ⟨?_, hp.trans hl.entry⟩
  rw [hh]
  exact hl.hand

theorem Lent.put (hl : s.Lent h id e lease) {k : Nat} {x y : Hand} (hx : s.hands k = some x)
    (hh : s'.hands = Function.update s.hands k (some y))
    (hid : y.attempt.run.id = x.attempt.run.id) (hlease : y.attempt.lease = x.attempt.lease)
    (hp : s'.parked.get? id = s.parked.get? id) : s'.Lent h id e lease := by
  by_cases hk : h = k
  · subst hk
    obtain ⟨z, hz, hzid, hzl⟩ := hl.hand
    obtain rfl : x = z := by
      rw [hx] at hz
      exact Option.some.inj hz
    refine ⟨⟨y, ?_, hid.trans hzid, hlease.trans hzl⟩, hp.trans hl.entry⟩
    rw [hh, Function.update_self]
  · refine hl.kept ?_ hp
    rw [hh, Function.update_of_ne hk]

theorem Lent.hold (hl : s.Lent h id e lease) (hs : s.Sound) (a : Attempt) :
    (s.hold a).hands h = s.hands h := by
  obtain ⟨x, hx, -, -⟩ := hl.hand
  rw [hs.toOrderly.hands_hold_of hx, hx]

theorem Lent.begin (hl : s.Lent h id e lease) (hs : s.Sound) (other : String) (pipe : Pipe) :
    (s.begin other pipe).Lent h id e lease := by
  unfold System.begin
  split
  · exact hl
  · exact hl.kept (hl.hold hs _) rfl

theorem Lent.amend (hl : s.Lent h id e lease) (k : Nat) {f : Attempt → Attempt}
    (hid : ∀ a, (f a).run.id = a.run.id) (hlease : ∀ a, (f a).lease = a.lease) :
    (s.amend k f).Lent h id e lease := by
  unfold System.amend
  split
  next a hx => exact hl.put hx rfl (hid a) (hlease a) rfl
  · exact hl

theorem Lent.other (hl : s.Lent h id e lease) (hs : s.Sound) {k : Nat} {x : Hand}
    (hx : s.hands k = some x) (hk : k ≠ h) : x.attempt.lease ≠ some lease := by
  intro hlease
  obtain ⟨y, hy, -, hyl⟩ := hl.hand
  exact hk (hs.single hx hy hlease hyl)

theorem Lent.settled (hl : s.Lent h id e lease) (hs : s.Sound) {k : Nat} {x : Hand}
    (hx : s.hands k = some x) (hk : k ≠ h) (hn : x.stage ≠ .settled) :
    x.attempt.run.id ≠ id := by
  rintro rfl
  have hlease := (hs.holds hx hn hl.entry).1
  exact hl.other hs hx hk hlease.symm

end System

namespace Engine

variable (eng : Engine σ)

/-- Between taking up a run and letting go of it under this hand, nobody closes its entry, and a
call that is settled was cancelled. -/
def Withholds (id : String) (h : Nat) : System σ → List (Action σ) → Prop
  | _, [] => True
  | s, act :: acts => (match act with
      | .close other => other ≠ id
      | .drop k => k ≠ h
      | .settle k => k = h → ∀ a result run, s.hands h = some ⟨a, .ended result run⟩ →
          wasCancelled result = true
      | _ => True) ∧ Withholds id h (eng.step s act) acts

variable {eng} {s : System σ} {h : Nat} {id : String} {e : Entry} {lease : Nat}

theorem lent_settle (hs : s.Sound) (hl : s.Lent h id e lease) {k : Nat}
    (hcancel : k = h → ∀ a result run, s.hands h = some ⟨a, .ended result run⟩ →
      wasCancelled result = true) : (eng.step s (.settle k)).Lent h id e lease := by
  simp only [step]
  split
  next a result run hx =>
    refine hl.put hx rfl rfl rfl ?_
    simp only [System.keep_parked, System.put_parked]
    by_cases hk : k = h
    · have hc := hcancel hk a result run (hk ▸ hx)
      rw [a.file_of_cancelled hc]
    · have hne : id ≠ a.run.id := (hl.settled hs hx hk (by simp)).symm
      have hid : run.id = a.run.id := (hs.live hx (by simp)).1
      exact a.get?_file_of_ne result hid _ s.parked hne
  · exact hl

theorem lent_abandon (hs : s.Sound) (hl : s.Lent h id e lease) {k : Nat} {x : Hand}
    (hx : s.hands k = some x) (hk : k ≠ h) :
    ({ s with parked := x.attempt.abandon s.parked }.put k none).Lent h id e lease := by
  have hne := hl.other hs hx hk
  refine hl.kept ?_ ?_
  · rw [System.put_hands, Function.update_of_ne hk.symm]
  · have hcond : ¬ (id = x.attempt.run.id ∧ some lease = x.attempt.lease) :=
      fun hboth => hne hboth.2.symm
    rw [System.put_parked, Attempt.get?_abandon, hl.entry, Option.map_some]
    simp only [hcond, if_false]

theorem lent_takeUp (hs : s.Sound) (hl : s.Lent h id e lease) (other : String) :
    (eng.step s (.takeUp other)).Lent h id e lease := by
  simp only [step]
  split
  next a parked ht =>
    obtain ⟨e₀, he₀, hfree, rfl, rfl⟩ := System.takeUp_ok ht
    have hne : id ≠ other := by
      rintro rfl
      rw [hl.entry] at he₀
      cases he₀
      cases hfree
    refine hl.kept (hl.hold hs _) ?_
    simp only [System.keep_parked, System.hold_parked, ParkedRuns.get?, Keyed.get?_put,
      if_neg hne]
  · exact hl

theorem lent_resume (hs : s.Sound) (hl : s.Lent h id e lease) (k : Nat) (answers : List Json) :
    (eng.step s (.resume k answers)).Lent h id e lease := by
  simp only [step]
  split
  next a hx =>
    split
    next hp =>
      -- Only a new run is refused, and it has no lease.
      have hnone := hs.lease_of_refused hx hp
      have hk : k ≠ h := by
        rintro rfl
        obtain ⟨x, hx', -, hxl⟩ := hl.hand
        rw [hx] at hx'
        cases hx'
        rw [hnone] at hxl
        cases hxl
      exact (lent_abandon hs hl hx hk).kept rfl rfl
    next => exact hl.put hx rfl rfl rfl rfl
  · exact hl

/-- Whatever the clients do short of closing the entry, it stays as it was under its lease. -/
theorem lent_step (hs : s.Sound) (hl : s.Lent h id e lease) {act : Action σ}
    {acts : List (Action σ)} (hw : eng.Withholds id h s (act :: acts)) :
    (eng.step s act).Lent h id e lease := by
  obtain ⟨hact, -⟩ := hw
  cases act with
  | create other pipe =>
    simp only [step]
    split
    · exact hl.begin hs ..
    · exact hl
  | start other pipe => exact hl.begin hs other pipe
  | takeUp other => exact lent_takeUp hs hl other
  | withGlobal k global => exact hl.amend k (fun _ => rfl) fun _ => rfl
  | withSid k sid => exact hl.amend k (fun _ => rfl) fun _ => rfl
  | withToken k token => exact hl.amend k (fun _ => rfl) fun _ => rfl
  | exec k input =>
    simp only [step]
    split
    next a hx => exact hl.put hx rfl rfl rfl rfl
    · exact hl
  | resume k answers => exact lent_resume hs hl k answers
  | turn k =>
    simp only [step]
    split
    next a run left hx =>
      split
      · exact hl.put hx rfl rfl rfl rfl
      · exact hl.put hx rfl rfl rfl rfl
    · exact hl
  | settle k => exact lent_settle hs hl hact
  | drop k =>
    simp only [step]
    split
    next x hx => exact lent_abandon hs hl hx hact
    · exact hl
  | close other =>
    refine hl.kept rfl ?_
    simp only [step, System.keep_parked, ParkedRuns.get?_remove, if_neg (Ne.symm hact)]
  | prune maxAge =>
    refine hl.kept rfl ?_
    simp only [step, System.keep_parked, ParkedRuns.get?_prune hs.distinct, hl.entry]
    rfl
  | register p => exact hl.kept rfl rfl
  | unregister other => exact hl.kept rfl rfl
  | outside w => exact hl.kept rfl rfl

theorem lent_play (hs : s.Sound) (hl : s.Lent h id e lease) {acts : List (Action σ)}
    (hw : eng.Withholds id h s acts) :
    (eng.play s acts).Sound ∧ (eng.play s acts).Lent h id e lease := by
  induction acts generalizing s with
  | nil => exact ⟨hs, hl⟩
  | cons act acts ih =>
    have hl' := lent_step hs hl hw
    exact ih (hs.change (eng.step_change s act)) hl' hw.2

theorem parked_of_hand (hs : s.Sound) {x : Hand} (hx : s.hands h = some x) {act : Action σ}
    (hact : act.hand? = some h) {other : String} (hne : other ≠ x.attempt.run.id) :
    (eng.step s act).parked.get? other = s.parked.get? other := by
  cases act with
  | withGlobal k global =>
    cases hact
    exact congrArg (·.get? other) (s.amend_parked h _)
  | withSid k sid =>
    cases hact
    exact congrArg (·.get? other) (s.amend_parked h _)
  | withToken k token =>
    cases hact
    exact congrArg (·.get? other) (s.amend_parked h _)
  | exec k input =>
    simp only [step]
    split <;> rfl
  | resume k answers =>
    cases hact
    simp only [step]
    split
    next a ha =>
      rw [hx] at ha
      cases ha
      split
      · exact a.get?_abandon_of_ne s.parked hne
      · rfl
    · rfl
  | turn k =>
    simp only [step]
    split
    · split <;> rfl
    · rfl
  | settle k =>
    cases hact
    simp only [step]
    split
    next a result run ha =>
      have hid : run.id = a.run.id := (hs.live ha (by simp)).1
      rw [hx] at ha
      cases ha
      exact a.get?_file_of_ne result hid _ s.parked hne
    · rfl
  | drop k =>
    cases hact
    simp only [step, hx]
    exact x.attempt.get?_abandon_of_ne s.parked hne
  | create | start | takeUp | close | prune | register | unregister | outside => cases hact

theorem entry_of_drop (hl : s.Lent h id e lease) (hfree : e.lease = none) :
    (eng.step s (.drop h)).parked.get? id = some e := by
  obtain ⟨x, hx, hid, hlease⟩ := hl.hand
  obtain ⟨run, held, since⟩ := e
  dsimp only at hfree
  subst hfree
  simp only [step, hx, System.put_parked]
  rw [Attempt.get?_abandon, hl.entry, Option.map_some, hid, hlease]
  simp

theorem lent_of_takeUp (hs : s.Sound) (he : s.parked.get? id = some e) (hfree : e.lease = none) :
    (eng.step s (.takeUp id)).Lent s.made id e (s.parked.leases + 1) ∧
      ∀ other, other ≠ id →
        (eng.step s (.takeUp id)).parked.get? other = s.parked.get? other := by
  have ht := ParkedRuns.takeUp_of_free he hfree
  obtain ⟨hid, -, -⟩ := hs.entry he
  simp only [step, ht]
  refine ⟨⟨⟨_, Function.update_self .., hid, rfl⟩, Keyed.get?_put_self ..⟩, fun other hne => ?_⟩
  simp only [System.keep_parked, System.hold_parked, ParkedRuns.get?, Keyed.get?_put, if_neg hne]

theorem Withholds.of_append {before after : List (Action σ)}
    (hw : eng.Withholds id h s (before ++ after)) : eng.Withholds id h s before := by
  induction before generalizing s with
  | nil => trivial
  | cons act before ih => exact ⟨hw.1, ih hw.2⟩

/-- An attempt on a parked run that is let go of, or whose call is cancelled, leaves all entries as
they were, and the run can be taken up again as it was. Other clients may act in the meantime: the
attempt changes no other entry at any of its steps, and unless the entry is closed it is afterwards
what it was before. -/
theorem parked_of_withdrawal (eng : Engine σ) (w : σ) (acts : List (Action σ)) {id : String}
    {e : Entry} (he : (eng.play (.init w) acts).parked.get? id = some e) (hfree : e.lease = none) :
    let s := eng.play (.init w) acts
    let opened := eng.step s (.takeUp id)
    (∃ a parked, Attempt.takeUp s.parked id = .ok (a, parked) ∧ a.run = e.run ∧
      ∀ b, a.Amended b → s.parked.Restored (b.abandon parked) id e ∧
        ∀ given v,
          (wasCancelled (eng.exec b given parked v).1 = true →
            s.parked.Restored (eng.exec b given parked v).2.1 id e) ∧
          (wasCancelled (eng.resume b given parked v).1 = true →
            s.parked.Restored (eng.resume b given parked v).2.1 id e)) ∧
    (∀ other, other ≠ id → opened.parked.get? other = s.parked.get? other) ∧
    ∀ during, eng.Withholds id s.made opened during →
      let ended := eng.play opened (during ++ [.drop s.made])
      ended.parked.get? id = some e ∧
      (∃ lease parked, Attempt.takeUp ended.parked id = .ok (⟨e.run, some lease, none⟩, parked)) ∧
      ∀ before act after, during ++ [.drop s.made] = before ++ act :: after →
        act.hand? = some s.made → ∀ other, other ≠ id →
          (eng.play opened (before ++ [act])).parked.get? other =
            (eng.play opened before).parked.get? other := by
  intro s opened
  have hs : s.Sound := System.sound_play eng w acts
  have hid : e.run.id = id := (hs.entry he).1
  obtain ⟨hlent, hothers⟩ := eng.lent_of_takeUp hs he hfree
  have hopened : opened.Sound := hs.change (eng.step_change s _)
  refine ⟨?_, hothers, fun during hw => ?_⟩
  · have ht := ParkedRuns.takeUp_of_free he hfree
    refine ⟨_, _, ht, rfl, fun b hb => ?_⟩
    have hrestored := ParkedRuns.Restored.of_entries he hfree (ParkedRuns.entries_abandon ht hid hb)
    refine ⟨hrestored, fun given v => ⟨fun hc => ?_, fun hc => ?_⟩⟩
    · rw [eng.exec_cancelled hc]
      exact hrestored
    · rw [eng.resume_cancelled hc]
      exact hrestored
  · obtain ⟨hsound, hl⟩ := eng.lent_play hopened hlent hw
    have hentry := eng.entry_of_drop hl hfree
    dsimp only
    rw [play_append]
    refine ⟨hentry, ⟨_, _, ParkedRuns.takeUp_of_free hentry hfree⟩, ?_⟩
    intro before act after hsplit hact other hne
    -- The steps before this one are steps of `during`, so the hand still has the run.
    have hlength : before.length ≤ during.length := by
      have hsum := congrArg List.length hsplit
      simp only [List.length_append, List.length_cons, List.length_nil] at hsum
      omega
    have hinitial : before <+: during := List.prefix_of_prefix_length_le
      ⟨act :: after, hsplit.symm⟩ (List.prefix_append ..) hlength
    obtain ⟨rest, rfl⟩ := hinitial
    obtain ⟨hsound', hl'⟩ := eng.lent_play hopened hlent hw.of_append
    obtain ⟨x, hx, hxid, -⟩ := hl'.hand
    rw [play_append]
    exact eng.parked_of_hand hsound' hx hact (hxid ▸ hne)

end Engine

def cancellingEngine : Engine Nat :=
  { countingEngine with services := { countingServices with isCancelled := fun _ w => 0 < w } }

def askingSystem : System Nat :=
  cancellingEngine.play (.init 0) [.start "r" askingPipe, .exec 0 [], .turn 0, .turn 0, .settle 0,
    .drop 0]

def cancelledAnswer : Except RunError (Except RunError Ending × ParkedRuns × Nat) :=
  (Attempt.takeUp askingSystem.parked "r").map fun (a, parked) =>
    cancellingEngine.resume (a.withToken "t") [.str "yes"] parked 0

theorem restored_of_cancelledAnswer :
    ∃ e r, askingSystem.parked.get? "r" = some e ∧ e.lease = none ∧ cancelledAnswer = .ok r ∧
      wasCancelled r.1 = true ∧ r.2.2 = 1 ∧ askingSystem.parked.Restored r.2.1 "r" e := by
  have hentry : (askingSystem.parked.get? "r").map Entry.lease = some none := by decide +kernel
  have hanswer : cancelledAnswer.toOption.map (fun r => (wasCancelled r.1, r.2.2)) =
      some (true, 1) := by
    decide +kernel
  obtain ⟨e, he, hfree⟩ := Option.map_eq_some_iff.mp hentry
  obtain ⟨⟨a, parked, ht, -, hattempt⟩, -⟩ := cancellingEngine.parked_of_withdrawal 0 _ he hfree
  have hr : cancelledAnswer =
      .ok (cancellingEngine.resume (a.withToken "t") [.str "yes"] parked 0) := by
    unfold cancelledAnswer
    rw [show Attempt.takeUp askingSystem.parked "r" = .ok (a, parked) from ht]
    rfl
  rw [hr] at hanswer
  obtain ⟨hcancelled, hcalls⟩ := Prod.ext_iff.mp (Option.some.inj hanswer)
  have hrestored := (hattempt _ (.token .same "t")).2 [.str "yes"] 0
  exact ⟨e, _, he, hfree, hr, hcancelled, hcalls, hrestored.2 hcancelled⟩

end Pipework
