import Pipework.Proofs.Leases

/-!
# Which runs are parked, told from what has happened

`Waits` reads off a log whether a run is parked: it has been parked, and since it first was nothing
has ended it. `System.Recorded` says that this is so of the entries, with the state that was parked
last, and is kept by every step of a sound system.
-/

namespace Pipework

variable {σ : Type}

/-- The run has been parked, and nothing has ended it since it first was. -/
def Waits (id : String) (log : List Event) : Prop :=
  ∃ before e after, log = before ++ e :: after ∧ (∀ x ∈ before, x.parks id = false) ∧
    e.parks id = true ∧ ∀ x ∈ after, x.ends id = false

def LastParked (id : String) (run : Run) (log : List Event) : Prop :=
  ∃ before after, log = before ++ .parked run :: after ∧ run.id = id ∧
    ∀ x ∈ after, x.parks id = false

section

variable {id : String} {log events : List Event}

theorem Waits.exists_parks (h : Waits id log) : ∃ x ∈ log, x.parks id = true := by
  obtain ⟨before, e, after, rfl, -, he, -⟩ := h
  exact ⟨e, by simp, he⟩

theorem waits_append (hp : ∀ x ∈ events, x.parks id = false) :
    Waits id (log ++ events) ↔ Waits id log ∧ ∀ x ∈ events, x.ends id = false := by
  constructor
  · rintro ⟨before, e, after, heq, hb, he, ha⟩
    -- The first parking is not among the new events, so the cut lies within the log.
    have hne : e ∉ events := fun hm => by
      rw [hp e hm] at he
      cases he
    obtain ⟨l, rfl, rfl⟩ | ⟨l, rfl, hl⟩ := List.append_eq_append_iff.mp heq
    · exact absurd (by simp) hne
    · cases l with
      | nil =>
        rw [List.nil_append] at hl
        exact absurd (hl ▸ List.mem_cons_self) hne
      | cons e' l =>
        obtain ⟨rfl, rfl⟩ := List.cons.inj hl
        exact ⟨⟨before, e, l, rfl, hb, he, fun x hx => ha x (List.mem_append_left _ hx)⟩,
          fun x hx => ha x (List.mem_append_right _ hx)⟩
  · rintro ⟨⟨before, e, after, rfl, hb, he, ha⟩, hends⟩
    refine ⟨before, e, after ++ events, by simp, hb, he, fun x hx => ?_⟩
    exact (List.mem_append.mp hx).elim (ha x) (hends x)

theorem Waits.append (h : Waits id log) (he : ∀ x ∈ events, x.ends id = false) :
    Waits id (log ++ events) := by
  obtain ⟨before, e, after, rfl, hb, hpe, ha⟩ := h
  refine ⟨before, e, after ++ events, by simp, hb, hpe, fun x hx => ?_⟩
  exact (List.mem_append.mp hx).elim (ha x) (he x)

theorem waits_of_first {e : Event} (h : ∀ x ∈ log, x.parks id = false) (he : e.parks id = true) :
    Waits id (log ++ [e]) :=
  ⟨log, e, [], rfl, h, he, by simp⟩

theorem LastParked.append {run : Run} (h : LastParked id run log)
    (hp : ∀ x ∈ events, x.parks id = false) : LastParked id run (log ++ events) := by
  obtain ⟨before, after, rfl, hid, ha⟩ := h
  refine ⟨before, after ++ events, by simp, hid, fun x hx => ?_⟩
  exact (List.mem_append.mp hx).elim (ha x) (hp x)

end

namespace System

variable {s s' : System σ}

structure Recorded (s : System σ) : Prop where
  waits (id : String) : (s.parked.get? id).isSome ↔ Waits id s.log
  last {id : String} {e : Entry} : s.parked.get? id = some e → LastParked id e.run s.log
  unknown {id : String} : id ∉ s.ids → ∀ y ∈ s.log, y.parks id = false
  unparked {h : Nat} {x : Hand} : s.hands h = some x → x.stage ≠ .settled →
    x.attempt.lease = none → ∀ y ∈ s.log, y.parks x.attempt.run.id = false

theorem Recorded.quiet (hr : s.Recorded) {events : List Event} (hlog : s'.log = s.log ++ events)
    (hp : ∀ id, ∀ x ∈ events, x.parks id = false) (hids : ∀ id ∈ s.ids, id ∈ s'.ids)
    (hk : ∀ k x', s'.hands k = some x' → x'.stage ≠ .settled → x'.attempt.lease = none →
      (∃ x, s.hands k = some x ∧ x'.Stems x) ∨ x'.attempt.run.id ∉ s.ids)
    (hkept : ∀ id, (∀ x ∈ events, x.ends id = false) →
      (s'.parked.get? id).map Entry.run = (s.parked.get? id).map Entry.run)
    (hgone : ∀ id, ∀ x ∈ events, x.ends id = true → s'.parked.get? id = none) : s'.Recorded := by
  have happ {id : String} (h : ∀ y ∈ s.log, y.parks id = false) :
      ∀ y ∈ s'.log, y.parks id = false := by
    rw [hlog]
    exact fun y hy => (List.mem_append.mp hy).elim (h y) (hp id y)
  exact {
    waits := by
      intro id
      rw [hlog, waits_append (hp id), ← hr.waits]
      by_cases hend : ∀ x ∈ events, x.ends id = false
      · have hmap := congrArg Option.isSome (hkept id hend)
        simp only [Option.isSome_map] at hmap
        simp only [hmap]
        exact ⟨fun h => ⟨h, hend⟩, And.left⟩
      · obtain ⟨x, hx, hxe⟩ : ∃ x ∈ events, x.ends id = true := by simpa using hend
        rw [hgone id x hx hxe]
        exact ⟨fun h => (by cases h), fun h => absurd h.2 hend⟩
    last := by
      intro id e he
      by_cases hend : ∀ x ∈ events, x.ends id = false
      · have hmap := hkept id hend
        rw [he, Option.map_some, eq_comm, Option.map_eq_some_iff] at hmap
        obtain ⟨e₀, he₀, hrun⟩ := hmap
        rw [hlog, ← hrun]
        exact (hr.last he₀).append (hp id)
      · obtain ⟨x, hx, hxe⟩ : ∃ x ∈ events, x.ends id = true := by simpa using hend
        rw [hgone id x hx hxe] at he
        cases he
    unknown := fun hid => happ (hr.unknown fun hmem => hid (hids _ hmem))
    unparked := by
      intro k x' hx' hn hl
      obtain ⟨x, hx, hst⟩ | hid := hk k x' hx' hn hl
      · rw [hst.id]
        exact happ (hr.unparked hx (hst.live hn).1 (hst.lease ▸ hl))
      · exact happ (hr.unknown hid) }

theorem Recorded.parked (hr : s.Recorded) (hs : s.Sound) {h : Nat} {a : Attempt} {run : Run}
    {snapshot : Snapshot} (hx : s.hands h = some ⟨a, .ended (.ok (.suspended snapshot)) run⟩)
    (held : ∀ lease, a.lease = some lease → s.parked.heldBy run.id lease = true) (now : Instant) :
    (({ s with parked := s.parked.park run none now }.put h (some ⟨a, .settled⟩)).keep
      [.ended a.run.id a.lease (.ok (.suspended snapshot)), .parked run]).Recorded := by
  obtain ⟨hid, -⟩ := hs.live hx (by simp)
  have hparks (id : String) (hne : id ≠ run.id) :
      ∀ x ∈ [Event.ended a.run.id a.lease (.ok (.suspended snapshot)), .parked run],
        x.parks id = false := by
    simp [Event.parks, Ne.symm hne]
  have hends (id : String) :
      ∀ x ∈ [Event.ended a.run.id a.lease (.ok (.suspended snapshot)), .parked run],
        x.ends id = false := by
    simp [Event.ends]
  exact {
    waits := by
      intro id
      simp only [keep_parked, put_parked, keep_log, put_log, ParkedRuns.get?_park]
      split
      next h =>
        subst h
        refine ⟨fun _ => ?_, fun _ => rfl⟩
        cases hl : a.lease with
        | none =>
          -- The first parking of a new run.
          have hnever := hr.unparked hx (by simp) hl
          rw [← hid] at hnever
          rw [List.append_cons]
          refine waits_of_first (fun y hy => ?_) (by simp [Event.parks])
          obtain hy | hy := List.mem_append.mp hy
          · exact hnever y hy
          · rw [List.mem_singleton.mp hy]
            rfl
        | some lease =>
          -- The lease holds an entry, so the run waits already.
          obtain ⟨e, he, -⟩ := s.parked.heldBy_iff.mp (held lease hl)
          rw [← hl]
          exact ((hr.waits run.id).mp (by rw [he]; rfl)).append (hends run.id)
      next hne =>
        rw [waits_append (hparks id hne), hr.waits]
        exact ⟨fun h => ⟨h, hends id⟩, And.left⟩
    last := by
      intro id e he
      rw [keep_parked, put_parked, ParkedRuns.get?_park] at he
      split at he
      next h =>
        cases he
        exact ⟨s.log ++ [.ended a.run.id a.lease (.ok (.suspended snapshot))], [], by simp,
          h.symm, by simp⟩
      next hne => exact (hr.last he).append (hparks id hne)
    unknown := by
      intro id hunknown y hy
      have hne : id ≠ run.id := by
        rintro rfl
        exact hunknown (hid ▸ hs.known hx)
      exact (List.mem_append.mp hy).elim (hr.unknown hunknown y) (hparks id hne y)
    unparked := by
      intro k x hk hn hl y hy
      obtain ⟨z, hz, hst⟩ := stems_put hx (by rintro z ⟨⟩; exact ⟨rfl, rfl, by simp⟩) hk
      have hne := hs.others hx held hk hn
      refine (List.mem_append.mp hy).elim (fun hy => ?_) (hparks _ hne y)
      rw [hst.id]
      exact hr.unparked hz (hst.live hn).1 (hst.lease ▸ hl) y hy }

theorem Recorded.settled (hr : s.Recorded) (hs : s.Sound) {h : Nat} {a : Attempt}
    {result : Except RunError Ending} {run : Run} {now : Instant} {parked : ParkedRuns}
    {events : List Event} (hx : s.hands h = some ⟨a, .ended result run⟩)
    (hf : a.Filed result run now s.parked parked events) :
    (({ s with parked := parked }.put h (some ⟨a, .settled⟩)).keep events).Recorded := by
  obtain ⟨hid, -⟩ := hs.live hx (by simp)
  have hst : Hand.Stems ⟨a, .settled⟩ ⟨a, .ended result run⟩ := ⟨rfl, rfl, by simp⟩
  have hk (k : Nat) (y : Hand)
      (hy : (({ s with parked := parked }.put h (some ⟨a, .settled⟩)).keep events).hands k =
        some y) : ∃ z, s.hands k = some z ∧ y.Stems z :=
    stems_put hx (by rintro z ⟨⟩; exact hst) hy
  cases hf with
  | lost hsusp hl held =>
    subst hsusp
    exact hr.quiet rfl (by simp [Event.parks]) (by simp) (fun k y hy _ _ => .inl (hk k y hy))
      (fun _ _ => rfl) (by simp [Event.ends])
  | cancelled hc =>
    subst hc
    exact hr.quiet rfl (by simp [Event.parks]) (by simp) (fun k y hy _ _ => .inl (hk k y hy))
      (fun _ _ => rfl) (by simp [Event.ends])
  | finished hends =>
    refine hr.quiet rfl (by simp [Event.parks]) (by simp) (fun k y hy _ _ => .inl (hk k y hy))
      (fun id hkept => ?_) fun id x hx hend => ?_
    · have hne : id ≠ a.run.id := by
        rintro rfl
        rw [hkept _ List.mem_cons_self] at hends
        cases hends
      rw [keep_parked, put_parked, ParkedRuns.get?_remove, if_neg hne]
    · obtain rfl := List.mem_singleton.mp hx
      have hid := Event.eq_of_ends_ended hend
      rw [keep_parked, put_parked, ParkedRuns.get?_remove, if_pos hid.symm]
  | parked hsusp held =>
    subst hsusp
    exact hr.parked hs hx held now

theorem Recorded.change {eng : Engine σ} (hr : s.Recorded) (hs : s.Sound)
    (hc : Change eng s s') : s'.Recorded := by
  cases hc with
  | outer c w =>
    exact hr.quiet (List.append_nil _).symm (by simp) (by simp)
      (fun k x hx _ _ => .inl ⟨x, hx, .refl x⟩) (fun _ _ => rfl) (by simp)
  | begun hid pipe =>
    refine hr.quiet (List.append_nil _).symm (by simp) (fun _ => List.mem_cons_of_mem _)
      (fun k x hx _ _ => ?_) (fun _ _ => rfl) (by simp)
    obtain ⟨-, rfl⟩ | hx := hands_hold hx
    · exact .inr hid
    · exact .inl ⟨x, hx, .refl x⟩
  | opened ht =>
    obtain ⟨e, he, hfree, rfl, rfl⟩ := takeUp_ok ht
    refine hr.quiet rfl (by simp [Event.parks]) (by simp) (fun k x hx _ hl => ?_)
      (fun id _ => ?_) (by simp [Event.ends])
    · obtain ⟨-, rfl⟩ | hx := hands_hold hx
      · cases hl
      · exact .inl ⟨x, hx, .refl x⟩
    · simp only [keep_parked, hold_parked, ParkedRuns.get?, Keyed.get?_put]
      split
      next h =>
        subst h
        rw [show Keyed.get? s.parked.entries id = some e from he]
        rfl
      next => rfl
  | onward hx hxx w =>
    exact hr.quiet (List.append_nil _).symm (by simp) (by simp)
      (fun k y hy _ _ => .inl (stems_put hx (by rintro z ⟨⟩; exact hxx.stems) hy))
      (fun _ _ => rfl) (by simp)
  | @refused h a hx hp =>
    have hl := hs.lease_of_refused hx hp
    have hgone := hs.get?_of_new hx (by simp) hl
    have habandon : a.abandon s.parked = s.parked := by simp [Attempt.abandon, hl]
    refine hr.quiet rfl (by simp [Event.parks]) (by simp)
      (fun k y hy _ _ => .inl (stems_put hx (by simp) hy)) (fun id _ => ?_) fun id x hx hend => ?_
    · rw [keep_parked, put_parked, habandon]
    · obtain rfl := List.mem_singleton.mp hx
      rw [keep_parked, put_parked, habandon, ← Event.eq_of_ends_ended hend, hgone]
  | settled hx hf => exact hr.settled hs hx hf
  | @dropped h x hx =>
    refine hr.quiet (List.append_nil _).symm (by simp) (by simp)
      (fun k y hy _ _ => .inl (stems_put hx (by simp) hy)) (fun id _ => ?_) (by simp)
    rw [put_parked, Attempt.get?_abandon, Option.map_map]
    congr 1
    funext e
    simp only [Function.comp]
    split <;> rfl
  | closed id =>
    refine hr.quiet rfl (by simp [Event.parks]) (by simp) (fun k x hx _ _ => .inl ⟨x, hx, .refl x⟩)
      (fun other hkept => ?_) fun other x hx hend => ?_
    · have hne : other ≠ id := by
        rintro rfl
        simpa [Event.ends] using hkept _ List.mem_cons_self
      rw [keep_parked, ParkedRuns.get?_remove, if_neg hne]
    · obtain rfl := List.mem_singleton.mp hx
      have he : id = other := by simpa [Event.ends] using hend
      rw [keep_parked, ParkedRuns.get?_remove, if_pos he.symm]
  | pruned now maxAge =>
    refine hr.quiet rfl ?_ (by simp) (fun k x hx _ _ => .inl ⟨x, hx, .refl x⟩)
      (fun id hkept => ?_) fun id x hx hend => ?_
    · intro id x hx
      obtain ⟨other, -, rfl⟩ := List.mem_map.mp hx
      rfl
    · have hne : id ∉ s.parked.stale now maxAge := fun hm => by
        simpa [Event.ends] using hkept _ (List.mem_map_of_mem hm)
      rw [ParkedRuns.mem_stale hs.distinct, not_exists] at hne
      rw [keep_parked, ParkedRuns.get?_prune hs.distinct]
      cases he : s.parked.get? id with
      | none => rfl
      | some e => simp [Option.filter, show ParkedRuns.isStale now maxAge e = false by
          simpa using fun h => hne e ⟨he, h⟩]
    · obtain ⟨other, hm, rfl⟩ := List.mem_map.mp hx
      obtain rfl : other = id := by simpa [Event.ends] using hend
      obtain ⟨e, he, hstale⟩ := (ParkedRuns.mem_stale hs.distinct).mp hm
      rw [keep_parked, ParkedRuns.get?_prune hs.distinct, he]
      simp [Option.filter, hstale]

theorem recorded_init (w : σ) : (init w).Recorded where
  waits id := by
    constructor
    · exact fun h => by cases h
    · rintro ⟨before, e, after, h, -⟩
      simp [init] at h
  last h := by cases h
  unknown _ y hy := by cases hy
  unparked h := by cases h

theorem recorded_play (eng : Engine σ) (w : σ) (acts : List (Action σ)) :
    (eng.play (init w) acts).Recorded :=
  (eng.play_induction (P := fun s => s.Sound ∧ s.Recorded)
    (fun _ _ hc h => ⟨h.1.change hc, h.2.change h.1 hc⟩) ⟨sound_init w, recorded_init w⟩ acts).2

end System

theorem Waits.of_append {id : String} {log events : List Event} (h : Waits id (log ++ events))
    (hp : ∃ x ∈ log, x.parks id = true) : Waits id log := by
  obtain ⟨before, e, after, heq, hb, he, ha⟩ := h
  obtain ⟨l, rfl, -⟩ | ⟨l, rfl, hl⟩ := List.append_eq_append_iff.mp heq
  · obtain ⟨x, hx, hxp⟩ := hp
    rw [hb x (List.mem_append_left _ hx)] at hxp
    cases hxp
  · cases l with
    | nil =>
      obtain ⟨x, hx, hxp⟩ := hp
      rw [hb x (by simpa using hx)] at hxp
      cases hxp
    | cons e' l =>
      obtain ⟨rfl, rfl⟩ := List.cons.inj hl
      exact ⟨before, e, l, rfl, hb, he, fun x hx => ha x (List.mem_append_left _ hx)⟩

theorem Change.log {eng : Engine σ} {s s' : System σ} (h : Change eng s s') :
    ∃ events, s'.log = s.log ++ events := by
  cases h with
  | outer | begun | onward | dropped => exact ⟨[], (List.append_nil _).symm⟩
  | opened | refused | settled | closed | pruned => exact ⟨_, rfl⟩

theorem Engine.log_play (eng : Engine σ) (s : System σ) (acts : List (Action σ)) :
    ∃ events, (eng.play s acts).log = s.log ++ events := by
  refine eng.play_induction (P := fun s' => ∃ events, s'.log = s.log ++ events)
    (fun s₁ s₂ hc => ?_) ⟨[], (List.append_nil _).symm⟩ acts
  rintro ⟨events, hlog⟩
  obtain ⟨events', hlog'⟩ := hc.log
  exact ⟨events ++ events', by rw [hlog', hlog, List.append_assoc]⟩

/-- Whatever the clients do, the store holds just the runs that wait, each as it was parked last,
and a run that has left the store never comes back. -/
theorem Engine.parked_iff_waits (eng : Engine σ) (w : σ) (acts : List (Action σ)) (id : String) :
    let s := eng.play (.init w) acts
    ((s.parked.get? id).isSome ↔ Waits id s.log) ∧
      (∀ e, s.parked.get? id = some e → LastParked id e.run s.log) ∧
      ((∃ y ∈ s.log, y.parks id = true) → s.parked.get? id = none →
        ∀ more, (eng.play s more).parked.get? id = none) := by
  intro s
  have hr : s.Recorded := System.recorded_play eng w acts
  refine ⟨hr.waits id, fun e he => hr.last he, fun hp hgone more => ?_⟩
  have hr' : (eng.play s more).Recorded := by
    have hplay : eng.play s more = eng.play (.init w) (acts ++ more) := by
      rw [play, play, List.foldl_append]
      rfl
    rw [hplay]
    exact System.recorded_play eng w (acts ++ more)
  -- If it came back it would wait then, and so it would have waited all along.
  by_contra hback
  obtain ⟨e, he⟩ := Option.ne_none_iff_exists'.mp hback
  have hw := (hr'.waits id).mp (by rw [he]; rfl)
  obtain ⟨events, hlog⟩ := eng.log_play s more
  rw [hlog] at hw
  have hin := (hr.waits id).mpr (hw.of_append hp)
  rw [hgone] at hin
  cases hin

end Pipework
