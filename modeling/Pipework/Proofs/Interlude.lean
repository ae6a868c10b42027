import Pipework.Proofs.Alike
import Pipework.Proofs.Leases

/-!
# What may happen while a run is parked

`Engine.Spares` lists what clients may do in the meantime: all but closing or pruning the entry and
ending an attempt on the run in any other way than by cancellation, as long as the calls of the run
cannot tell the worlds before and after apart. The entry then keeps its run.
-/

namespace Pipework

variable {σ : Type}

def undated (_ : Instant) : Instant := default

namespace Services

/-- Worlds that the calls of a run cannot tell apart, whatever their clocks show. -/
def Alike (sv : Services σ) (run : String) (w v : σ) : Prop :=
  ∃ R : σ → σ → Prop, sv.Agree sv run undated R ∧ R w v

variable {sv : Services σ} {run : String} {w v u : σ}

theorem Alike.refl (sv : Services σ) (run : String) (w : σ) : sv.Alike run w w :=
  ⟨Eq, sv.agree_self run undated, rfl⟩

theorem Alike.symm (h : sv.Alike run w v) : sv.Alike run v w := by
  obtain ⟨R, hR, hw⟩ := h
  exact ⟨_, hR.symm, hw⟩

theorem Alike.trans (h : sv.Alike run w v) (h' : sv.Alike run v u) : sv.Alike run w u := by
  obtain ⟨R, hR, hw⟩ := h
  obtain ⟨Q, hQ, hv⟩ := h'
  exact ⟨_, hR.trans hQ, v, hw, hv⟩

theorem alike_agree (sv : Services σ) (run : String) :
    sv.Agree sv run undated (sv.Alike run) where
  process hw _ hc name args := by
    obtain ⟨R, hR, hw⟩ := hw
    obtain ⟨ha, hw'⟩ := hR.process hw hc name args
    exact ⟨ha, R, hR, hw'⟩
  request hw _ hc payload := by
    obtain ⟨R, hR, hw⟩ := hw
    obtain ⟨ha, hw'⟩ := hR.request hw hc payload
    exact ⟨ha, R, hR, hw'⟩
  chat hw _ hc r := by
    obtain ⟨R, hR, hw⟩ := hw
    obtain ⟨ha, hw'⟩ := hR.chat hw hc r
    exact ⟨ha, R, hR, hw'⟩
  render hw r := by
    obtain ⟨R, hR, hw⟩ := hw
    obtain ⟨ha, hw'⟩ := hR.render hw r
    exact ⟨ha, R, hR, hw'⟩
  notify hw _ hc := by
    obtain ⟨R, hR, hw⟩ := hw
    exact ⟨R, hR, hR.notify hw hc⟩
  now _ := rfl

end Services

namespace Engine

variable (eng : Engine σ) (id : String)

/-- Steps that leave a parked run as it is. An attempt on the run may run no node. -/
def SparesStep (s : System σ) : Action σ → Prop
  | .close other => other ≠ id
  | .prune maxAge => ∀ e, s.parked.get? id = some e →
      ParkedRuns.isStale (eng.services.now s.world) maxAge e = false
  | .settle h => ∀ a result run, s.hands h = some ⟨a, .ended result run⟩ → a.run.id = id →
      wasCancelled result = true
  | .turn h => ∀ a run left, s.hands h = some ⟨a, .running run left⟩ →
      if a.run.id = id then
        run.stack.top.current? = none ∨ eng.isCancelled a.token s.world = true
      else eng.services.Alike id s.world (eng.step s (.turn h)).world
  | .outside w => eng.services.Alike id s.world w
  | _ => True

def Spares : System σ → List (Action σ) → Prop
  | _, [] => True
  | s, act :: acts => eng.SparesStep id s act ∧ Spares (eng.step s act) acts

variable {eng id} {s : System σ}

theorem world_of_idle_turn {token : Option String} {run : Run} {w : σ} (left : Nat)
    (h : run.stack.top.current? = none ∨ eng.isCancelled token w = true) :
    (∀ l, eng.turn token ⟨⟨run, w⟩, left⟩ = .more l → l.scene.world = w) ∧
      ∀ result t, eng.turn token ⟨⟨run, w⟩, left⟩ = .done result t → t.world = w := by
  cases hc : eng.isCancelled token w with
  | true =>
    rw [eng.turn_cancelled (s := ⟨run, w⟩) hc]
    exact ⟨by rintro l ⟨⟩, by rintro result t ⟨⟩; rfl⟩
  | false =>
    have hn : run.stack.top.current? = none := h.resolve_right (by simp [hc])
    cases hb : run.stack.below with
    | nil =>
      rw [eng.turn_root (s := ⟨run, w⟩) hc hn hb]
      split
      · exact ⟨by rintro l ⟨⟩; rfl, by rintro result t ⟨⟩⟩
      · exact ⟨by rintro l ⟨⟩, by rintro result t ⟨⟩; rfl⟩
      · exact ⟨by rintro l ⟨⟩, by rintro result t ⟨⟩; rfl⟩
    | cons parent rest =>
      rw [eng.turn_case (s := ⟨run, w⟩) hc hn hb]
      split
      · exact ⟨by rintro l ⟨⟩; rfl, by rintro result t ⟨⟩⟩
      · exact ⟨by rintro l ⟨⟩, by rintro result t ⟨⟩; rfl⟩

theorem world_step (act : Action σ) (ht : ∀ h, act ≠ .turn h) (ho : ∀ w, act ≠ .outside w) :
    (eng.step s act).world = s.world := by
  cases act with
  | turn h => exact absurd rfl (ht h)
  | outside w => exact absurd rfl (ho w)
  | create id pipe =>
    simp only [step]
    split
    · exact s.begin_world ..
    · rfl
  | start id pipe => exact s.begin_world id pipe
  | withGlobal h global => exact s.amend_world h _
  | withSid h sid => exact s.amend_world h _
  | withToken h token => exact s.amend_world h _
  | resume h answers =>
    simp only [step]
    split
    · split <;> rfl
    · rfl
  | close | prune | register | unregister => rfl
  | _ =>
    simp only [step]
    split <;> rfl

theorem alike_of_spares {act : Action σ} (h : eng.SparesStep id s act) :
    eng.services.Alike id s.world (eng.step s act).world := by
  by_cases ho : ∃ w, act = .outside w
  · obtain ⟨w, rfl⟩ := ho
    exact h
  by_cases ht : ∃ k, act = .turn k
  · obtain ⟨k, rfl⟩ := ht
    cases hx : s.hands k with
    | none =>
      simp only [step, hx]
      exact .refl ..
    | some x =>
      obtain ⟨a, stage⟩ := x
      cases stage with
      | running run left =>
        have hidle := h a run left hx
        split at hidle
        · obtain ⟨hmore, hdone⟩ := world_of_idle_turn left hidle
          simp only [step, hx]
          split
          next l hl =>
            rw [show _ = l.scene.world from rfl, hmore l hl]
            exact .refl ..
          next result t hl =>
            rw [show _ = t.world from rfl, hdone result t hl]
            exact .refl ..
        · exact hidle
      | _ =>
        simp only [step, hx]
        exact .refl ..
  · rw [world_step act (fun k hk => ht ⟨k, hk⟩) fun w hw => ho ⟨w, hw⟩]
    exact .refl ..

theorem run_of_abandon {a : Attempt} {p : ParkedRuns} {e : Entry} (he : p.get? id = some e) :
    ∃ e', (a.abandon p).get? id = some e' ∧ e'.run = e.run := by
  rw [Attempt.get?_abandon, he]
  refine ⟨_, rfl, ?_⟩
  dsimp only
  split <;> rfl

theorem entry_of_spares (hs : s.Sound) {act : Action σ} (h : eng.SparesStep id s act) {e : Entry}
    (he : s.parked.get? id = some e) :
    ∃ e', (eng.step s act).parked.get? id = some e' ∧ e'.run = e.run := by
  have same : ∃ e', s.parked.get? id = some e' ∧ e'.run = e.run := ⟨e, he, rfl⟩
  have hbegin (other : String) (pipe : Pipe) :
      ∃ e', (s.begin other pipe).parked.get? id = some e' ∧ e'.run = e.run := by
    rw [System.begin_parked]
    exact same
  have hamend (k : Nat) (f : Attempt → Attempt) :
      ∃ e', (s.amend k f).parked.get? id = some e' ∧ e'.run = e.run := by
    rw [System.amend_parked]
    exact same
  cases act with
  | create other pipe =>
    simp only [step]
    split
    · exact hbegin ..
    · exact same
  | start other pipe => exact hbegin other pipe
  | takeUp other =>
    simp only [step]
    split
    next ht =>
      obtain ⟨e₀, he₀, hfree, rfl, rfl⟩ := System.takeUp_ok ht
      simp only [System.keep_parked, System.hold_parked, ParkedRuns.get?, Keyed.get?_put]
      split
      next hid =>
        subst hid
        rw [he] at he₀
        cases he₀
        exact ⟨_, rfl, rfl⟩
      next => exact same
    · exact same
  | withGlobal k global => exact hamend k _
  | withSid k sid => exact hamend k _
  | withToken k token => exact hamend k _
  | exec k input =>
    simp only [step]
    split <;> exact same
  | resume k answers =>
    simp only [step]
    split
    · split
      · exact run_of_abandon he
      · exact same
    · exact same
  | turn k =>
    simp only [step]
    split
    · split <;> exact same
    · exact same
  | settle k =>
    -- Only here could the entry be overwritten or removed; a cancelled attempt does neither.
    simp only [step]
    split
    next a result run hx =>
      simp only [System.keep_parked, System.put_parked]
      obtain ⟨hid, -⟩ := hs.live hx (by simp)
      have hcancel := h a result run hx
      have hf := a.filed result run (eng.services.now s.world) s.parked
      generalize a.file result run (eng.services.now s.world) s.parked = parked at hf ⊢
      generalize a.report result run s.parked = events at hf
      cases hf with
      | parked hr held =>
        have hne : id ≠ run.id := by
          rintro rfl
          have hc := hcancel hid.symm
          rw [hr] at hc
          cases hc
        rw [ParkedRuns.get?_park, if_neg hne]
        exact same
      | lost => exact same
      | finished hr =>
        have hne : id ≠ a.run.id := by
          rintro rfl
          rw [Event.ends_of_cancelled (hcancel rfl)] at hr
          cases hr
        rw [ParkedRuns.get?_remove, if_neg hne]
        exact same
      | cancelled => exact same
    · exact same
  | drop k =>
    simp only [step]
    split
    · exact run_of_abandon he
    · exact same
  | close other =>
    simp only [step, System.keep_parked, ParkedRuns.get?_remove, if_neg (Ne.symm h)]
    exact same
  | prune maxAge =>
    simp only [step, System.keep_parked, ParkedRuns.get?_prune hs.distinct, he]
    exact ⟨e, by simp [Option.filter, h e he], rfl⟩
  | register p => exact same
  | unregister other => exact same
  | outside w => exact same

/-- After clients have done such things, the entry has the same run and the run's calls cannot tell
the world from the one before. -/
theorem spares_play (hs : s.Sound) {acts : List (Action σ)} (h : eng.Spares id s acts) {e : Entry}
    (he : s.parked.get? id = some e) :
    (eng.play s acts).Sound ∧ eng.services.Alike id s.world (eng.play s acts).world ∧
      ∃ e', (eng.play s acts).parked.get? id = some e' ∧ e'.run = e.run := by
  induction acts generalizing s e with
  | nil => exact ⟨hs, .refl .., e, he, rfl⟩
  | cons act acts ih =>
    obtain ⟨hact, hacts⟩ := h
    obtain ⟨e₁, he₁, hrun₁⟩ := entry_of_spares hs hact he
    have halike := alike_of_spares hact
    obtain ⟨hs', halike', e₂, he₂, hrun₂⟩ := ih (hs.change (eng.step_change s act)) hacts he₁
    exact ⟨hs', halike.trans halike', e₂, he₂, hrun₂.trans hrun₁⟩

end Engine

end Pipework
