import Pipework.Proofs.System

/-!
# A parked run is carried on by one attempt at a time

`System.Sound` ties leases, hands and entries together and is kept by every step.
-/

namespace Pipework

variable {σ : Type}

structure Hand.Stems (x' x : Hand) : Prop where
  id : x'.attempt.run.id = x.attempt.run.id
  lease : x'.attempt.lease = x.attempt.lease
  live : x'.stage ≠ .settled → x.stage ≠ .settled ∧ (x.Live → x'.Live)

theorem Hand.Stems.refl (x : Hand) : x.Stems x := ⟨rfl, rfl, fun h => ⟨h, fun hlive => hlive⟩⟩

theorem Hand.Onward.stems {x x' : Hand} (h : x.Onward x') : x'.Stems x :=
  ⟨h.id, h.lease, fun _ => ⟨h.open_, h.live⟩⟩

namespace System

structure Orderly (s : System σ) : Prop where
  unmade {h : Nat} : s.made ≤ h → s.hands h = none
  known {h : Nat} {x : Hand} : s.hands h = some x → x.attempt.run.id ∈ s.ids
  given {h : Nat} {x : Hand} {lease : Nat} : s.hands h = some x → x.attempt.lease = some lease →
    lease ≤ s.parked.leases
  live {h : Nat} {x : Hand} : s.hands h = some x → x.stage ≠ .settled → x.Live
  single {h h' : Nat} {x x' : Hand} {lease : Nat} : s.hands h = some x → s.hands h' = some x' →
    x.attempt.lease = some lease → x'.attempt.lease = some lease → h = h'

structure Sound (s : System σ) : Prop extends s.Orderly where
  distinct : s.parked.Distinct
  entry {id : String} {e : Entry} : s.parked.get? id = some e →
    e.run.id = id ∧ e.run.paused.isSome ∧ id ∈ s.ids
  /-- Whoever has an entry on lease has it in hand. -/
  holder {id : String} {e : Entry} {lease : Nat} : s.parked.get? id = some e →
    e.lease = some lease →
    ∃ h x, s.hands h = some x ∧ x.attempt.run.id = id ∧ x.attempt.lease = some lease
  /-- Until it is settled, an attempt has its entry on lease or there is no entry. -/
  holds {h : Nat} {x : Hand} {e : Entry} : s.hands h = some x → x.stage ≠ .settled →
    s.parked.get? x.attempt.run.id = some e → e.lease = x.attempt.lease ∧ e.lease.isSome
  /-- A run that has not been parked has one attempt. -/
  alone {h h' : Nat} {x x' : Hand} : s.hands h = some x → x.stage ≠ .settled →
    x.attempt.lease = none → s.hands h' = some x' → x'.attempt.run.id = x.attempt.run.id → h' = h

variable {s s' : System σ}

theorem stems_put {h k : Nat} {x x' : Hand} {y : Option Hand} (hx : s.hands h = some x)
    (hy : ∀ z, y = some z → z.Stems x) (hk : Function.update s.hands h y k = some x') :
    ∃ z, s.hands k = some z ∧ x'.Stems z := by
  by_cases he : k = h
  · subst he
    rw [Function.update_self] at hk
    exact ⟨x, hx, hy x' hk⟩
  · rw [Function.update_of_ne he] at hk
    exact ⟨x', hk, .refl x'⟩

theorem Orderly.kept (ho : s.Orderly) (hm : s'.made = s.made) (hi : s'.ids = s.ids)
    (hl : s'.parked.leases = s.parked.leases)
    (hk : ∀ k x', s'.hands k = some x' → ∃ x, s.hands k = some x ∧ x'.Stems x) : s'.Orderly where
  unmade {k} hle := by
    rw [hm] at hle
    cases hx : s'.hands k with
    | none => rfl
    | some x' =>
      obtain ⟨x, hx, -⟩ := hk k x' hx
      rw [ho.unmade hle] at hx
      cases hx
  known {k x'} hx' := by
    obtain ⟨x, hx, hs⟩ := hk k x' hx'
    rw [hs.id, hi]
    exact ho.known hx
  given {k x' lease} hx' hlease := by
    obtain ⟨x, hx, hs⟩ := hk k x' hx'
    rw [hl]
    exact ho.given hx (hs.lease ▸ hlease)
  live {k x'} hx' hn := by
    obtain ⟨x, hx, hs⟩ := hk k x' hx'
    obtain ⟨hn, hlive⟩ := hs.live hn
    exact hlive (ho.live hx hn)
  single {k k' x' y' lease} hx' hy' hxl hyl := by
    obtain ⟨x, hx, hs⟩ := hk k x' hx'
    obtain ⟨y, hy, ht⟩ := hk k' y' hy'
    exact ho.single hx hy (hs.lease ▸ hxl) (ht.lease ▸ hyl)

theorem Sound.unique (hs : s.Sound) {h k : Nat} {x y : Hand} (hx : s.hands h = some x)
    (hxn : x.stage ≠ .settled) (hy : s.hands k = some y)
    (hid : y.attempt.run.id = x.attempt.run.id)
    (hl : ∀ lease, x.attempt.lease = some lease → s.parked.heldBy x.attempt.run.id lease = true)
    (hyn : y.stage ≠ .settled) : k = h := by
  cases hlease : x.attempt.lease with
  | none => exact hs.alone hx hxn hlease hy hid
  | some lease =>
    obtain ⟨e, he, hel⟩ := s.parked.heldBy_iff.mp (hl lease hlease)
    rw [← hid] at he
    exact hs.single hy hx ((hs.holds hy hyn he).1.symm.trans hel) hlease

/-- A step that parks nothing keeps the system sound, if it frees an entry only together with the
hand that has it on lease. -/
theorem Sound.kept (hs : s.Sound) (hm : s'.made = s.made) (hi : s'.ids = s.ids)
    (hl : s'.parked.leases = s.parked.leases)
    (hk : ∀ k x', s'.hands k = some x' → ∃ x, s.hands k = some x ∧ x'.Stems x)
    (hd : s'.parked.Distinct)
    (he : ∀ id e', s'.parked.get? id = some e' → ∃ e, s.parked.get? id = some e ∧ e'.run = e.run ∧
      (e'.lease = e.lease ∧ (∀ k x, s.hands k = some x → x.attempt.lease = e.lease →
        e.lease.isSome → ∃ x', s'.hands k = some x' ∧ x'.Stems x) ∨
      e'.lease = none ∧ ∀ k x', s'.hands k = some x' → x'.attempt.lease ≠ e.lease)) :
    s'.Sound where
  toOrderly := hs.toOrderly.kept hm hi hl hk
  distinct := hd
  entry {id e'} he' := by
    obtain ⟨e, hge, hrun, -⟩ := he id e' he'
    rw [hrun, hi]
    exact hs.entry hge
  holder {id e' lease} he' hlease := by
    obtain ⟨e, hge, -, ⟨hel, hkeep⟩ | ⟨hel, -⟩⟩ := he id e' he'
    · rw [hel] at hlease
      obtain ⟨k, x, hx, hid, hxl⟩ := hs.holder hge hlease
      obtain ⟨x', hx', hst⟩ := hkeep k x hx (hxl.trans hlease.symm) (by rw [hlease]; rfl)
      exact ⟨k, x', hx', hst.id.trans hid, hst.lease.trans hxl⟩
    · rw [hel] at hlease
      cases hlease
  holds {k x' e'} hx' hn he' := by
    obtain ⟨x, hx, hst⟩ := hk k x' hx'
    obtain ⟨e, hge, -, hel⟩ := he _ e' he'
    rw [hst.id] at hge
    have hholds := hs.holds hx (hst.live hn).1 hge
    obtain ⟨hel, -⟩ | ⟨-, hne⟩ := hel
    · rw [hel, hst.lease]
      exact hholds
    · exact absurd (hst.lease.trans hholds.1.symm) (hne k x' hx')
  alone {k k' x' y'} hx' hn hlease hy' hid := by
    obtain ⟨x, hx, hst⟩ := hk k x' hx'
    obtain ⟨y, hy, hst'⟩ := hk k' y' hy'
    exact hs.alone hx (hst.live hn).1 (hst.lease ▸ hlease) hy
      (hst'.id.symm.trans (hid.trans hst.id))

theorem Sound.letGo (hs : s.Sound) {h : Nat} {x : Hand} (hx : s.hands h = some x) :
    ({ s with parked := x.attempt.abandon s.parked }.put h none).Sound := by
  refine hs.kept rfl rfl (x.attempt.leases_abandon s.parked) (fun k y hy => ?_)
    (x.attempt.distinct_abandon s.parked hs.distinct) fun id e' he' => ?_
  · exact stems_put hx (by simp) hy
  · rw [put_parked, Attempt.get?_abandon] at he'
    obtain ⟨e, he, rfl⟩ := Option.map_eq_some_iff.mp he'
    refine ⟨e, he, by split <;> rfl, ?_⟩
    cases hel : e.lease with
    | none => exact .inl ⟨by split <;> simp [hel], by simp⟩
    | some lease =>
      obtain ⟨k, y, hy, hyid, hyl⟩ := hs.holder he hel
      split
      -- The hand that goes had this entry on lease, and no other hand has the same lease.
      next hfree =>
        refine .inr ⟨rfl, fun k' z hz hzl => ?_⟩
        simp only [put_hands] at hz
        have hxl : x.attempt.lease = some lease := hfree.2.symm
        by_cases hk : k' = h
        · subst hk
          rw [Function.update_self] at hz
          cases hz
        · rw [Function.update_of_ne hk] at hz
          exact hk (hs.single hz hx hzl hxl)
      next hkeep =>
        refine .inl ⟨hel, fun k' z hz hzl _ => ?_⟩
        have hk : k' ≠ h := by
          rintro rfl
          obtain rfl : x = z := by
            rw [hx] at hz
            exact Option.some.inj hz
          obtain rfl := hs.single hy hx hyl hzl
          rw [hx] at hy
          cases hy
          exact hkeep ⟨hyid.symm, hyl.symm⟩
        exact ⟨z, by simpa [hk] using hz, .refl z⟩

section

variable {a : Attempt} {k : Nat} {x : Hand}

theorem hands_hold (hk : (s.hold a).hands k = some x) :
    k = s.made ∧ x = ⟨a, .idle⟩ ∨ s.hands k = some x := by
  rw [hold_hands, Function.update_apply] at hk
  split at hk
  next he => exact .inl ⟨he, (Option.some.inj hk).symm⟩
  next => exact .inr hk

theorem Orderly.hands_hold_of (ho : s.Orderly) (hx : s.hands k = some x) :
    (s.hold a).hands k = some x := by
  have hne : k ≠ s.made := by
    rintro rfl
    rw [ho.unmade (Nat.le_refl _)] at hx
    cases hx
  rw [hold_hands, Function.update_of_ne hne, hx]

end

theorem Sound.begun (hs : s.Sound) {id : String} (hid : id ∉ s.ids) (pipe : Pipe) :
    ({ s with ids := id :: s.ids }.hold (.create id pipe)).Sound where
  unmade {k} hle := by
    have hne : k ≠ s.made := by
      rintro rfl
      exact absurd hle (Nat.not_succ_le_self _)
    rw [hold_hands, Function.update_of_ne hne]
    exact hs.unmade (Nat.le_of_succ_le hle)
  known hx := by
    obtain ⟨-, rfl⟩ | hx := hands_hold hx
    · exact List.mem_cons_self
    · exact List.mem_cons_of_mem _ (hs.known hx)
  given hx hl := by
    obtain ⟨-, rfl⟩ | hx := hands_hold hx
    · cases hl
    · exact hs.given hx hl
  live hx hn := by
    obtain ⟨-, rfl⟩ | hx := hands_hold hx
    · exact fun h => by cases h
    · exact hs.live hx hn
  single hx hy hxl hyl := by
    obtain ⟨-, rfl⟩ | hx := hands_hold hx
    · cases hxl
    · obtain ⟨-, rfl⟩ | hy := hands_hold hy
      · cases hyl
      · exact hs.single hx hy hxl hyl
  distinct := hs.distinct
  entry he := by
    obtain ⟨hrun, hp, hk⟩ := hs.entry he
    exact ⟨hrun, hp, List.mem_cons_of_mem _ hk⟩
  holder he hl := by
    obtain ⟨k, x, hx, hxid, hxl⟩ := hs.holder he hl
    exact ⟨k, x, hs.toOrderly.hands_hold_of hx, hxid, hxl⟩
  holds hx hn he := by
    obtain ⟨-, rfl⟩ | hx := hands_hold hx
    · exact absurd (hs.entry he).2.2 hid
    · exact hs.holds hx hn he
  alone hx hn hl hy hxy := by
    obtain ⟨rfl, rfl⟩ | hx := hands_hold hx
    · obtain ⟨rfl, -⟩ | hy := hands_hold hy
      · rfl
      · have hk := hs.known hy
        rw [hxy] at hk
        exact absurd hk hid
    · obtain ⟨-, rfl⟩ | hy := hands_hold hy
      · have hk := hs.known hx
        rw [← hxy] at hk
        exact absurd hk hid
      · exact hs.alone hx hn hl hy hxy

theorem Sound.stemming (hs : s.Sound) {h : Nat} {x x' : Hand} (hx : s.hands h = some x)
    (hst : x'.Stems x) {parked : ParkedRuns} (hl : parked.leases = s.parked.leases)
    (hd : parked.Distinct)
    (he : ∀ id e, parked.get? id = some e → s.parked.get? id = some e) :
    ({ s with parked := parked }.put h (some x')).Sound := by
  refine hs.kept rfl rfl hl (fun k y hy => ?_) hd fun id e hge => ?_
  · exact stems_put hx (by rintro z ⟨⟩; exact hst) hy
  · refine ⟨e, he id e hge, rfl, .inl ⟨rfl, fun k y hy _ _ => ?_⟩⟩
    by_cases hk : k = h
    · subst hk
      rw [hx] at hy
      cases hy
      exact ⟨x', Function.update_self .., hst⟩
    · exact ⟨y, by simpa [hk] using hy, .refl y⟩

theorem Sound.removed (hs : s.Sound) (hm : s'.made = s.made) (hh : s'.hands = s.hands)
    (hi : s'.ids = s.ids) (hl : s'.parked.leases = s.parked.leases) (hd : s'.parked.Distinct)
    (he : ∀ id e, s'.parked.get? id = some e → s.parked.get? id = some e) : s'.Sound := by
  have hk (k : Nat) (x : Hand) (hx : s'.hands k = some x) :
      ∃ y, s.hands k = some y ∧ x.Stems y := ⟨x, hh ▸ hx, .refl x⟩
  refine hs.kept hm hi hl hk hd fun id e hge => ⟨e, he id e hge, rfl, .inl ⟨rfl, ?_⟩⟩
  exact fun k x hx _ _ => ⟨x, by rw [hh, hx], .refl x⟩

theorem Sound.of_same (hs : s.Sound) (hu : ∀ {k}, s'.made ≤ k → s'.hands k = none)
    (hh : s'.hands = s.hands) (hi : s'.ids = s.ids) (hp : s'.parked = s.parked) : s'.Sound := by
  obtain ⟨_, parked, made, hands, ids, _, _⟩ := s'
  dsimp only at hh hi hp
  subst hh hi hp
  exact {
    unmade := hu
    known := hs.known
    given := hs.given
    live := hs.live
    single := hs.single
    distinct := hs.distinct
    entry := hs.entry
    holder := hs.holder
    holds := hs.holds
    alone := hs.alone }

theorem Sound.lease_of_refused (hs : s.Sound) {h : Nat} {a : Attempt}
    (hx : s.hands h = some ⟨a, .idle⟩) (hp : a.run.paused = none) : a.lease = none := by
  cases hl : a.lease with
  | none => rfl
  | some lease =>
    have hpaused := hs.live hx (by simp) (by simp [hl])
    rw [show a.run.paused = none from hp] at hpaused
    cases hpaused

theorem Sound.get?_of_new (hs : s.Sound) {h : Nat} {x : Hand} (hx : s.hands h = some x)
    (hn : x.stage ≠ .settled) (hl : x.attempt.lease = none) :
    s.parked.get? x.attempt.run.id = none := by
  by_contra hsome
  obtain ⟨e, he⟩ := Option.ne_none_iff_exists'.mp hsome
  obtain ⟨hel, hsome⟩ := hs.holds hx hn he
  rw [hel, hl] at hsome
  cases hsome

theorem Sound.others (hs : s.Sound) {h k : Nat} {a : Attempt} {result : Except RunError Ending}
    {run : Run} {y : Hand} (hx : s.hands h = some ⟨a, .ended result run⟩)
    (held : ∀ lease, a.lease = some lease → s.parked.heldBy run.id lease = true)
    (hy : Function.update s.hands h (some ⟨a, .settled⟩) k = some y) (hn : y.stage ≠ .settled) :
    y.attempt.run.id ≠ run.id := by
  obtain ⟨hid, -⟩ := hs.live hx (by simp)
  -- An unsettled attempt on the run could only be this one, which is settled now.
  intro hrun
  by_cases hk : k = h
  · subst hk
    rw [Function.update_self] at hy
    cases hy
    exact hn rfl
  · rw [Function.update_of_ne hk] at hy
    exact hk (hs.unique hx (by simp) hy (hrun.trans hid)
      (fun lease hl => hid ▸ held lease hl) hn)

theorem Sound.parked (hs : s.Sound) {h : Nat} {a : Attempt} {run : Run} {snapshot : Snapshot}
    (hx : s.hands h = some ⟨a, .ended (.ok (.suspended snapshot)) run⟩)
    (held : ∀ lease, a.lease = some lease → s.parked.heldBy run.id lease = true) (now : Instant) :
    ({ s with parked := s.parked.park run none now }.put h (some ⟨a, .settled⟩)).Sound := by
  obtain ⟨hid, hpaused⟩ := hs.live hx (by simp)
  have hst : Hand.Stems ⟨a, .settled⟩ ⟨a, .ended (.ok (.suspended snapshot)) run⟩ :=
    ⟨rfl, rfl, by simp⟩
  have hk (k : Nat) (y : Hand)
      (hy : ({ s with parked := s.parked.park run none now }.put h (some ⟨a, .settled⟩)).hands k =
        some y) : ∃ z, s.hands k = some z ∧ y.Stems z :=
    stems_put hx (by rintro z ⟨⟩; exact hst) hy
  exact {
    toOrderly := hs.toOrderly.kept rfl rfl (by simp) hk
    distinct := hs.distinct.park run now
    entry := by
      intro id e he
      rw [put_parked, ParkedRuns.get?_park] at he
      split at he
      next h =>
        cases he
        exact ⟨h.symm, hpaused snapshot rfl, h ▸ hid ▸ hs.known hx⟩
      next => exact hs.entry he
    holder := by
      intro id e lease he hl
      rw [put_parked, ParkedRuns.get?_park] at he
      split at he
      next =>
        cases he
        cases hl
      next hne =>
        obtain ⟨k, y, hy, hyid, hyl⟩ := hs.holder he hl
        have hkh : k ≠ h := by
          rintro rfl
          rw [hx] at hy
          cases hy
          exact hne (hyid.symm.trans hid.symm)
        exact ⟨k, y, by simpa [hkh] using hy, hyid, hyl⟩
    holds := by
      intro k y e hy hn he
      rw [put_parked, ParkedRuns.get?_park, if_neg (hs.others hx held hy hn)] at he
      obtain ⟨z, hz, hyz⟩ := hk k y hy
      rw [hyz.id] at he
      rw [hyz.lease]
      exact hs.holds hz (hyz.live hn).1 he
    alone := by
      intro k k' y y' hy hn hl hy' hyy
      obtain ⟨z, hz, hyz⟩ := hk k y hy
      obtain ⟨z', hz', hyz'⟩ := hk k' y' hy'
      exact hs.alone hz (hyz.live hn).1 (hyz.lease ▸ hl) hz'
        (hyz'.id.symm.trans (hyy.trans hyz.id)) }

theorem Sound.settled (hs : s.Sound) {h : Nat} {a : Attempt} {result : Except RunError Ending}
    {run : Run} {now : Instant} {parked : ParkedRuns} {events : List Event}
    (hx : s.hands h = some ⟨a, .ended result run⟩)
    (hf : a.Filed result run now s.parked parked events) :
    ({ s with parked := parked }.put h (some ⟨a, .settled⟩)).Sound := by
  have hst : Hand.Stems ⟨a, .settled⟩ ⟨a, .ended result run⟩ := ⟨rfl, rfl, by simp⟩
  cases hf with
  | parked hr held =>
    subst hr
    exact hs.parked hx held now
  | lost hr hl held => exact hs.stemming hx hst rfl hs.distinct fun _ _ he => he
  | finished hr =>
    refine hs.stemming hx hst rfl (hs.distinct.remove _) fun id e he => ?_
    rw [ParkedRuns.get?_remove] at he
    split at he
    · cases he
    · exact he
  | cancelled hr => exact hs.stemming hx hst rfl hs.distinct fun _ _ he => he

theorem takeUp_ok {p p' : ParkedRuns} {id : String} {a : Attempt}
    (h : Attempt.takeUp p id = .ok (a, p')) :
    ∃ e, p.get? id = some e ∧ e.lease = none ∧ a = ⟨e.run, some (p.leases + 1), none⟩ ∧
      p' = ⟨Keyed.put p.entries id { e with lease := some (p.leases + 1) }, p.leases + 1⟩ := by
  unfold Attempt.takeUp at h
  split at h
  · cases h
  next hc =>
    cases h
    obtain ⟨since, he, rfl, rfl⟩ := p.checkout_ok hc
    exact ⟨_, he, rfl, rfl, rfl⟩

theorem Sound.opened (hs : s.Sound) {id : String} {a : Attempt} {parked : ParkedRuns}
    (ht : Attempt.takeUp s.parked id = .ok (a, parked)) :
    ({ s with parked := parked }.hold a).Sound := by
  obtain ⟨e, he, hfree, rfl, rfl⟩ := takeUp_ok ht
  obtain ⟨rfl, hpaused, hknown⟩ := hs.entry he
  have hget (other : String) : ParkedRuns.get? ⟨Keyed.put s.parked.entries e.run.id
      { e with lease := some (s.parked.leases + 1) }, s.parked.leases + 1⟩ other =
      if other = e.run.id then some { e with lease := some (s.parked.leases + 1) }
        else s.parked.get? other := Keyed.get?_put ..
  -- No attempt has the lease that is given out now.
  have hnew {k : Nat} {x : Hand} (hx : s.hands k = some x)
      (hl : x.attempt.lease = some (s.parked.leases + 1)) : False :=
    Nat.not_succ_le_self _ (hs.given hx hl)
  -- The entry is free, so every other attempt on the run has been settled.
  have hsettled {k : Nat} {x : Hand} (hx : s.hands k = some x)
      (hid : x.attempt.run.id = e.run.id) : x.stage = .settled := by
    by_contra hn
    obtain ⟨hl, hsome⟩ := hs.holds hx hn (hid ▸ he)
    rw [hfree] at hsome
    cases hsome
  exact {
    unmade := by
      intro k hle
      have hne : k ≠ s.made := by
        rintro rfl
        exact absurd hle (Nat.not_succ_le_self _)
      rw [hold_hands, Function.update_of_ne hne]
      exact hs.unmade (Nat.le_of_succ_le hle)
    known := by
      intro k x hx
      obtain ⟨-, rfl⟩ | hx := hands_hold hx
      · exact hknown
      · exact hs.known hx
    given := by
      intro k x lease hx hl
      obtain ⟨-, rfl⟩ | hx := hands_hold hx
      · cases hl
        exact Nat.le_refl _
      · exact Nat.le_succ_of_le (hs.given hx hl)
    live := by
      intro k x hx hn
      obtain ⟨-, rfl⟩ | hx := hands_hold hx
      · exact fun _ => hpaused
      · exact hs.live hx hn
    single := by
      intro k k' x y lease hx hy hxl hyl
      obtain ⟨rfl, rfl⟩ | hx := hands_hold hx
      · obtain ⟨rfl, -⟩ | hy := hands_hold hy
        · rfl
        · cases hxl
          exact (hnew hy hyl).elim
      · obtain ⟨-, rfl⟩ | hy := hands_hold hy
        · cases hyl
          exact (hnew hx hxl).elim
        · exact hs.single hx hy hxl hyl
    distinct := Keyed.nodup_put hs.distinct ..
    entry := by
      intro id' e' he'
      rw [hold_parked, hget] at he'
      split at he'
      next h =>
        cases he'
        exact ⟨h.symm, hpaused, h ▸ hknown⟩
      next => exact hs.entry he'
    holder := by
      intro id' e' lease he' hl
      rw [hold_parked, hget] at he'
      split at he'
      next h =>
        cases he'
        exact ⟨s.made, _, Function.update_self .., h.symm, hl⟩
      next =>
        obtain ⟨k, x, hx, hid, hxl⟩ := hs.holder he' hl
        exact ⟨k, x, hs.toOrderly.hands_hold_of hx, hid, hxl⟩
    holds := by
      intro k x e' hx hn he'
      rw [hold_parked, hget] at he'
      obtain ⟨-, rfl⟩ | hx := hands_hold hx
      · rw [if_pos rfl] at he'
        cases he'
        exact ⟨rfl, rfl⟩
      · split at he'
        next h => exact absurd (hsettled hx h) hn
        next => exact hs.holds hx hn he'
    alone := by
      intro k k' x y hx hn hl hy hxy
      obtain ⟨-, rfl⟩ | hx := hands_hold hx
      · cases hl
      · obtain ⟨-, rfl⟩ | hy := hands_hold hy
        · exact absurd (hsettled hx hxy.symm) hn
        · exact hs.alone hx hn hl hy hxy }

theorem Sound.call (hs : s.Sound) {h : Nat} {a : Attempt} (hx : s.hands h = some ⟨a, .idle⟩)
    {result : Except RunError Ending} {run : Run} (hlive : Hand.Live ⟨a, .ended result run⟩)
    (now : Instant) :
    ({ s with parked := a.settle result run now s.parked }.put h none).Sound := by
  have hst : Hand.Stems ⟨a, .ended result run⟩ ⟨a, .idle⟩ :=
    ⟨rfl, rfl, fun _ => ⟨by simp, fun _ => hlive⟩⟩
  have hended := hs.stemming hx hst rfl hs.distinct fun _ _ he => he
  have hsettled := hended.settled (Function.update_self ..) (a.filed result run now s.parked)
  have hgone := hsettled.letGo (Function.update_self ..)
  have hhands : Function.update (Function.update (Function.update s.hands h
      (some ⟨a, .ended result run⟩)) h (some ⟨a, .settled⟩)) h none =
      Function.update s.hands h none := by
    rw [Function.update_idem, Function.update_idem]
  refine hgone.of_same (fun hle => ?_) hhands.symm rfl rfl
  have hnone := hgone.unmade hle
  simp only [put_hands, Function.update_idem] at hnone ⊢
  exact hnone

theorem Sound.change {eng : Engine σ} (hs : s.Sound) (hc : Change eng s s') : s'.Sound := by
  cases hc with
  | outer c w => exact hs.of_same hs.unmade rfl rfl rfl
  | begun hid pipe => exact hs.begun hid pipe
  | opened ht => exact (hs.opened ht).of_same (hs.opened ht).unmade rfl rfl rfl
  | onward hx hxx w =>
    have hs' := hs.stemming hx hxx.stems rfl hs.distinct fun _ _ he => he
    exact hs'.of_same hs'.unmade rfl rfl rfl
  | refused hx hp => exact (hs.letGo hx).of_same (hs.letGo hx).unmade rfl rfl rfl
  | settled hx hf => exact (hs.settled hx hf).of_same (hs.settled hx hf).unmade rfl rfl rfl
  | dropped hx => exact hs.letGo hx
  | closed id =>
    refine hs.removed rfl rfl rfl rfl (hs.distinct.remove id) fun other e he => ?_
    rw [keep_parked, ParkedRuns.get?_remove] at he
    split at he
    · cases he
    · exact he
  | pruned now maxAge =>
    refine hs.removed rfl rfl rfl rfl (hs.distinct.prune now maxAge) fun other e he => ?_
    rw [keep_parked, ParkedRuns.get?_prune hs.distinct] at he
    exact (Option.filter_eq_some_iff.mp he).1

theorem sound_init (w : σ) : (init w).Sound where
  unmade _ := rfl
  known h := by cases h
  given h := by cases h
  live h := by cases h
  single h := by cases h
  distinct := List.nodup_nil
  entry h := by cases h
  holder h := by cases h
  holds h := by cases h
  alone h := by cases h

theorem sound_play (eng : Engine σ) (w : σ) (acts : List (Action σ)) :
    (eng.play (init w) acts).Sound :=
  eng.play_induction (fun _ _ hc hs => hs.change hc) (sound_init w) acts

end System

end Pipework
