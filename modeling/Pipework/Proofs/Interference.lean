import Pipework.Proofs.InStep
import Pipework.Proofs.Interlude
import Pipework.Proofs.Lifetime

/-!
# Runs keep to themselves

Whatever other clients do, and whenever they do it, a client sees what it would see if it were
alone: the results of its calls, what has been called and remembered, and the entry of its run. A
move keeps the views of whoever makes it in step and changes nothing for the others, and so do all
moves together.
-/

namespace Pipework

variable {σ : Type} {d : Instant → Instant}

def Turn.stage : Turn σ → Stage
  | .more l => .running l.scene.run l.left
  | .done result s => .ended result s.run

namespace Engine

variable {eng : Engine σ} {token : Option String}

theorem step_turn {s : System σ} {h : Nat} {a : Attempt} {run : Run} {left : Nat}
    (hx : s.hands h = some ⟨a, .running run left⟩) :
    eng.step s (.turn h) =
      { s with world := (eng.turn a.token ⟨⟨run, s.world⟩, left⟩).scene.world }.put h
        (some ⟨a, (eng.turn a.token ⟨⟨run, s.world⟩, left⟩).stage⟩) := by
  simp only [step, hx]
  cases eng.turn a.token ⟨⟨run, s.world⟩, left⟩ <;> rfl

theorem suspended_of_map {result result' : Except RunError Ending}
    (h : result.map (Ending.redate d) = result'.map (Ending.redate d)) {x : Snapshot}
    (hx : result = .ok (.suspended x)) :
    ∃ y, result' = .ok (.suspended y) ∧ x.redate d = y.redate d := by
  subst hx
  obtain ⟨_, he, -⟩ | ⟨_, ending, ⟨⟩, rfl, hxy⟩ := map_eq_map h
  · cases he
  · cases ending with
    | completed value => cases hxy
    | suspended y => exact ⟨y, rfl, Ending.suspended.inj hxy⟩

theorem stage_same {R : σ → σ → Prop} {run : Run} {w v : σ} {left : Nat}
    (h : Turn.Alike d R (eng.turn token ⟨⟨run, w⟩, left⟩) (eng.turn token ⟨⟨run, v⟩, left⟩)) :
    (eng.turn token ⟨⟨run, w⟩, left⟩).stage.Same d (eng.turn token ⟨⟨run, v⟩, left⟩).stage := by
  generalize ht : eng.turn token ⟨⟨run, w⟩, left⟩ = t at h
  generalize ht' : eng.turn token ⟨⟨run, v⟩, left⟩ = t' at h
  cases h with
  | @more s s' left' hs =>
    obtain ⟨p, hp⟩ := hs.run
    have hpaused := (paused_of_more ht').trans (paused_of_more ht).symm
    dsimp only at hpaused
    rw [hp] at hpaused
    dsimp only at hpaused
    have hsame : s'.run = s.run := by rw [hp, hpaused]
    simp only [Turn.stage, hsame]
    exact .running ..
  | @done result result' s s' he =>
    obtain ⟨p, hp⟩ := he.scene.run
    have hpause {x y : Snapshot} (hx : result = .ok (.suspended x))
        (hy : result' = .ok (.suspended y)) (hxy : x.redate d = y.redate d) :
        s.run.paused.map (·.redate d) = s'.run.paused.map (·.redate d) := by
      obtain ⟨_, _, hr, hq⟩ := eng.run_of_done ht
      obtain ⟨_, _, hr', hq'⟩ := eng.run_of_done ht'
      rw [hr, hr', (hq x hx).1, (hq' y hy).1]
      exact congrArg some hxy
    have hpaused : s.run.paused.map (·.redate d) = s'.run.paused.map (·.redate d) := by
      obtain ⟨-, ⟨x, hx⟩ | hkept⟩ := stack_of_done ht
      · obtain ⟨y, hy, hxy⟩ := suspended_of_map he.result hx
        exact hpause hx hy hxy
      · obtain ⟨-, ⟨y, hy⟩ | hkept'⟩ := stack_of_done ht'
        · obtain ⟨x, hx, hxy⟩ := suspended_of_map he.result.symm hy
          exact hpause hx hy hxy.symm
        · rw [hkept, hkept']
    refine .ended he.result ?_
    rw [Run.redate, Run.redate, hpaused, hp]

end Engine

theorem ParkedRuns.exists_takeUp {s : ParkedRuns} {id : String} {e : Entry}
    (he : s.get? id = some e) (hfree : e.lease = none) :
    ∃ p, Attempt.takeUp s id = .ok (⟨e.run, some (s.leases + 1), none⟩, p) ∧
      p.get? id = some { e with lease := some (s.leases + 1) } :=
  ⟨_, takeUp_of_free he hfree, Keyed.get?_put_self ..⟩

/-- What a client does by itself: its tokens are its own, and nobody else can tell what it does to
the world. -/
def Move.Private (tokens : String → Prop) (R : String → σ → σ → Prop) (id : String) :
    Move σ → Prop
  | withToken _ token => tokens token
  | outside f => (∀ w v, R id w v → R id (f w) (f v)) ∧ ∀ other w, other ≠ id → R other w (f w)
  | _ => True

namespace Meeting

theorem sound_gather {s : System σ} (hs : s.Sound) : (gather s).system.Sound where
  unmade := hs.unmade
  known := hs.known
  given := hs.given
  live := hs.live
  single := hs.single
  distinct := hs.distinct
  entry := hs.entry
  holder := hs.holder
  holds := hs.holds
  alone := hs.alone

structure Alike (d : Instant → Instant) (tokens : String → Prop) (R : String → σ → σ → Prop)
    (id : String) (m m' : Meeting σ) : Prop where
  view : (m.view id).InStep d tokens (m'.view id)
  world : Services.Told R id m.system.world m'.system.world

namespace Alike

variable {tokens : String → Prop} {R : String → σ → σ → Prop} {id : String} {m m' : Meeting σ}

theorem put (h : m.Alike d tokens R id m') (hm : m.Placed) (hm' : m'.Placed) {k : Nat}
    {x x' : Hand} (hx : (m.view id).hands k = some x) (hx' : (m'.view id).hands k = some x')
    {y y' : Hand} (hy : y.Same d y') (hlease : y.attempt.lease = x.attempt.lease)
    (hlease' : y'.attempt.lease = x'.attempt.lease)
    (htoken : ∀ token, y.attempt.token = some token → tokens token) :
    (m.put (m.seat id k) (some y)).Alike d tokens R id (m'.put (m'.seat id k) (some y')) where
  view := by
    rw [hm.view_put hx, hm'.view_put hx']
    exact h.view.amend hx hx' hy hlease hlease' htoken
  world := h.world

theorem onward (h : m.Alike d tokens R id m') (hm : m.Placed) (hm' : m'.Placed) {k : Nat}
    {a a' : Attempt} {stage stage' next next' : Stage}
    (hx : (m.view id).hands k = some ⟨a, stage⟩) (hx' : (m'.view id).hands k = some ⟨a', stage'⟩)
    (ha : a.Same d a') (hnext : next.Same d next') :
    (m.put (m.seat id k) (some ⟨a, next⟩)).Alike d tokens R id
      (m'.put (m'.seat id k) (some ⟨a', next'⟩)) :=
  h.put hm hm' hx hx' ⟨ha, hnext⟩ rfl rfl fun _ ht => h.view.tokens hx ht

theorem clear (h : m.Alike d tokens R id m') (hm : m.Placed) (hm' : m'.Placed) {k : Nat}
    {x x' : Hand} (hx : (m.view id).hands k = some x) (hx' : (m'.view id).hands k = some x') :
    (m.put (m.seat id k) none).Alike d tokens R id (m'.put (m'.seat id k) none) where
  view := by
    rw [hm.view_put hx, hm'.view_put hx']
    exact h.view.clear k
  world := h.world

theorem keep (h : m.Alike d tokens R id m') {events events' : List Event}
    (hevents : List.Forall₂ (Event.Same d) events events') :
    (m.keep events).Alike d tokens R id (m'.keep events') where
  view := by
    rw [view_keep, view_keep]
    exact h.view.keep (List.rel_filter (fun e e' he => Bool.eq_iff_iff.mp (he.about id)) hevents)
  world := h.world

theorem file (h : m.Alike d tokens R id m') {p p' : ParkedRuns} {entry entry' : Option Entry}
    (hp : p.get? id = entry) (hp' : p'.get? id = entry')
    (hview : ((m.view id).file entry).InStep d tokens ((m'.view id).file entry')) :
    (m.file p).Alike d tokens R id (m'.file p') := by
  refine ⟨?_, h.world⟩
  rw [view_file, view_file, hp, hp']
  exact hview

theorem letGo (h : m.Alike d tokens R id m') (hm : m.Placed) (hm' : m'.Placed) {k : Nat}
    {x x' : Hand} (hx : (m.view id).hands k = some x) (hx' : (m'.view id).hands k = some x') :
    ((m.file (x.attempt.abandon m.system.parked)).put (m.seat id k) none).Alike d tokens R id
      ((m'.file (x'.attempt.abandon m'.system.parked)).put (m'.seat id k) none) := by
  have hfile := h.file rfl rfl
    (h.view.abandon hx hx' (hm.run_id hx) (hm'.run_id hx') (s := m.system.parked) rfl rfl)
  exact hfile.clear { hm with } { hm' with } hx hx'

theorem hold (h : m.Alike d tokens R id m') (hm : m.Placed) (hm' : m'.Placed) {a a' : Attempt}
    (ha : a.Same d a') (htied : ∀ e e', (m.view id).entry = some e → (m'.view id).entry = some e' →
      (a.lease = e.lease ↔ a'.lease = e'.lease)) (htoken : a.token = none) :
    (m.hold id a).Alike d tokens R id (m'.hold id a') where
  view := by
    rw [hm.view_hold, hm'.view_hold]
    exact h.view.hold ha htied htoken
  world := h.world

theorem pass (h : m.Alike d tokens R id m') {w w' : σ × Signed}
    (hw : Services.Told R id w w') : (m.pass w).Alike d tokens R id (m'.pass w') :=
  ⟨h.view, hw⟩

end Alike

end Meeting

namespace Engine

open Meeting Services

variable {eng : Engine σ} {tokens : String → Prop} {R : String → σ → σ → Prop} {id : String}
  {m m' : Meeting σ} (h : m.Alike d tokens R id m') (hm : m.Placed) (hm' : m'.Placed)
  (hs : m.system.Sound) (hs' : m'.system.Sound)

include h hm hm'

theorem alike_begin (pipe : Pipe) : (m.become id (m.system.begin id pipe)).Alike d tokens R id
    (m'.become id (m'.system.begin id pipe)) := by
  unfold System.begin
  by_cases hid : id ∈ m.system.ids
  · have hid' : id ∈ m'.system.ids := h.view.known.mp hid
    simpa [hid, hid'] using h
  · have hid' : id ∉ m'.system.ids := fun hid' => hid (h.view.known.mpr hid')
    simp only [if_neg hid, if_neg hid', become_hold, become_know]
    have hknow : (m.know id).Alike d tokens R id (m'.know id) := by
      refine ⟨?_, h.world⟩
      rw [view_know, view_know]
      exact h.view.know
    refine hknow.hold { hm with } { hm' with } ⟨rfl, rfl, rfl⟩ ?_ rfl
    intro e e' he he'
    have hentry : Option.Rel (Entry.Same d) (some e) (some e') := he ▸ he' ▸ h.view.entry
    cases hentry with
    | some hsame =>
      rw [Attempt.create, eq_comm, eq_none_iff_of_isSome hsame.lease, eq_comm]

theorem alike_amend (k : Nat) {f : Attempt → Attempt}
    (hf : ∀ a a', a.Same d a' → (f a).Same d (f a')) (hlease : ∀ a, (f a).lease = a.lease)
    (htoken : ∀ a token, (f a).token = some token → a.token = some token ∨ tokens token) :
    (m.become id (m.system.amend (m.seat id k) f)).Alike d tokens R id
      (m'.become id (m'.system.amend (m'.seat id k) f)) := by
  simp only [System.amend, hm.hands_seat, hm'.hands_seat]
  obtain ⟨hx, hx'⟩ | ⟨a, a', stage, stage', hx, hx', ha, hstage⟩ := h.view.hands_cases k
  · simpa [hx, hx'] using h
  · cases hstage with
    | idle =>
      simp only [hx, hx', become_put, become_system]
      refine h.put hm hm' hx hx' ⟨hf a a' ha, .idle⟩ (hlease a) (hlease a') fun token ht => ?_
      exact (htoken a token ht).elim (h.view.tokens hx) fun ht => ht
    | _ => simpa [hx, hx'] using h

theorem alike_exec (k : Nat) (input : List Json) :
    (eng.perform m (id, .exec k input)).Alike d tokens R id
      (eng.perform m' (id, .exec k input)) := by
  simp only [perform, Move.action, step, hm.hands_seat, hm'.hands_seat]
  obtain ⟨hx, hx'⟩ | ⟨a, a', stage, stage', hx, hx', ha, hstage⟩ := h.view.hands_cases k
  · simpa [hx, hx'] using h
  · cases hstage with
    | idle =>
      simp only [hx, hx', become_put, become_system, Run.restart_of_redate ha.run]
      exact h.onward hm hm' hx hx' ha (ha.begin ..)
    | _ => simpa [hx, hx'] using h

theorem alike_resume (k : Nat) (answers : List Json) :
    (eng.perform m (id, .resume k answers)).Alike d tokens R id
      (eng.perform m' (id, .resume k answers)) := by
  simp only [perform, Move.action, step, hm.hands_seat, hm'.hands_seat]
  obtain ⟨hx, hx'⟩ | ⟨a, a', stage, stage', hx, hx', ha, hstage⟩ := h.view.hands_cases k
  · simpa [hx, hx'] using h
  · cases hstage with
    | idle =>
      have hpaused := Run.isSome_of_redate ha.run
      simp only [hx, hx']
      cases hp : a.run.paused with
      | none =>
        have hp' : a'.run.paused = none := by simpa [hp] using hpaused
        simp only [hp', become_keep, become_put, become_file, become_system]
        refine (h.letGo hm hm' hx hx').keep (.cons ?_ .nil)
        rw [show a.run.id = id from hm.run_id hx, show a'.run.id = id from hm'.run_id hx']
        exact .ended id ha.lease rfl
      | some snapshot =>
        rw [hp] at hpaused
        obtain ⟨snapshot', hp'⟩ := Option.isSome_iff_exists.mp hpaused.symm
        simp only [hp', become_put, become_system, Run.answer_of_redate ha.run]
        exact h.onward hm hm' hx hx' ha (ha.begin ..)
    | _ => simpa [hx, hx'] using h

include hs hs' in
theorem alike_takeUp : (eng.perform m (id, .takeUp)).Alike d tokens R id
    (eng.perform m' (id, .takeUp)) := by
  simp only [perform, Move.action, step]
  have hentry := h.view.entry
  generalize he : (m.view id).entry = entry at hentry
  generalize he' : (m'.view id).entry = entry' at hentry
  have hget : m.system.parked.get? id = entry := he
  have hget' : m'.system.parked.get? id = entry' := he'
  cases hentry with
  | none => simpa [Attempt.takeUp, ParkedRuns.checkout, hget, hget'] using h
  | @some e e' hsame =>
    have hlease := eq_none_iff_of_isSome hsame.lease
    cases hl : e.lease with
    | some lease =>
      have hl' : e'.lease.isSome = true := by rw [← hsame.lease, hl]; rfl
      simpa [Attempt.takeUp, ParkedRuns.checkout_of_leased _ hget (by rw [hl]; rfl),
        ParkedRuns.checkout_of_leased _ hget' hl'] using h
    | none =>
      obtain ⟨p, hp, hlent⟩ := ParkedRuns.exists_takeUp hget hl
      obtain ⟨p', hp', hlent'⟩ := ParkedRuns.exists_takeUp hget' (hlease.mp hl)
      simp only [hp, hp', become_keep, become_hold, become_file, become_system]
      -- No attempt has a lease that has not been given out.
      have hnew {m : Meeting σ} (hs : m.system.Sound) {k : Nat} {x : Hand}
          (hx : (m.view id).hands k = some x) :
          x.attempt.lease ≠ some (m.system.parked.leases + 1) :=
        fun hlease => Nat.not_succ_le_self _ (hs.given (mem_seats hx).2 hlease)
      have hfile : (m.file p).Alike d tokens R id (m'.file p') := by
        refine h.file hlent hlent' (h.view.file (.some ⟨hsame.run, rfl, hsame.since⟩) ?_)
        rintro k x x' _ _ hx hx' ⟨⟩ ⟨⟩
        exact iff_of_false (hnew hs hx) (hnew hs' hx')
      have ha : Attempt.Same d ⟨e.run, some (m.system.parked.leases + 1), none⟩
          ⟨e'.run, some (m'.system.parked.leases + 1), none⟩ := ⟨hsame.run, rfl, rfl⟩
      refine (hfile.hold { hm with } { hm' with } ha ?_ rfl).keep (.cons ?_ .nil)
      · intro e₁ e₁' he₁ he₁'
        obtain rfl := Option.some.inj (hlent.symm.trans he₁)
        obtain rfl := Option.some.inj (hlent'.symm.trans he₁')
        exact iff_of_true rfl rfl
      · rw [parkings_same h.view.events]
        exact .opened id (by rfl) _

theorem alike_settle (hs : m.system.Sound) (k : Nat)
    (hnow : d (eng.services.now m.system.world.1) = d (eng.services.now m'.system.world.1)) :
    (eng.perform m (id, .settle k)).Alike d tokens R id
      (eng.perform m' (id, .settle k)) := by
  simp only [perform, Move.action, step, hm.hands_seat, hm'.hands_seat]
  obtain ⟨hx, hx'⟩ | ⟨a, a', stage, stage', hx, hx', ha, hstage⟩ := h.view.hands_cases k
  · simpa [hx, hx'] using h
  · cases hstage with
    | @ended result result' run run' hresult hrun =>
      have hid : a.run.id = id := hm.run_id hx
      have hid' : a'.run.id = id := hm'.run_id hx'
      have hrid : run.id = a.run.id := (hs.live (mem_seats hx).2 (by simp)).1
      obtain ⟨hreport, hview⟩ := h.view.settle hx hx' ha hresult hrun hid hid' (hrid.trans hid)
        hnow (s := m.system.parked) rfl rfl
      simp only [hx, hx', become_keep, become_put, become_file, become_system]
      exact ((h.file rfl rfl hview).onward { hm with } { hm' with } hx hx' ha .settled).keep hreport
    | _ => simpa [hx, hx'] using h

theorem alike_drop (k : Nat) : (eng.perform m (id, .drop k)).Alike d tokens R id
    (eng.perform m' (id, .drop k)) := by
  simp only [perform, Move.action, step, hm.hands_seat, hm'.hands_seat]
  obtain ⟨hx, hx'⟩ | ⟨a, a', stage, stage', hx, hx', -, -⟩ := h.view.hands_cases k
  · simpa [hx, hx'] using h
  · simp only [hx, hx', become_put, become_file, become_system]
    exact h.letGo hm hm' hx hx'

omit hm hm' in
theorem alike_close : (eng.perform m (id, .close)).Alike d tokens R id
    (eng.perform m' (id, .close)) := by
  simp only [perform, Move.action, step, become_keep, become_file, become_system]
  have hnone (s : ParkedRuns) : (s.remove id).get? id = none := by
    rw [ParkedRuns.get?_remove, if_pos rfl]
  exact (h.file (hnone _) (hnone _) (h.view.free .none (by simp))).keep (.cons (.closed id) .nil)

end Engine

namespace Engine

open Meeting Services

variable {eng : Engine σ} {asks : String → RenderRequest → Bool}
  {tokens : String → String → Prop} {R : String → σ → σ → Prop} {id other : String}
  {m m' : Meeting σ}

theorem alike_turn (hapart : eng.services.Apart d asks tokens R)
    (h : m.Alike d (tokens id) R id m') (hm : m.Placed) (hm' : m'.Placed) (hs : m.system.Sound)
    (k : Nat)
    (hputs : Puts (asks id) id (eng.perform m' (id, .turn k)).system.world.2) :
    (eng.perform m (id, .turn k)).Alike d (tokens id) R id (eng.perform m' (id, .turn k)) := by
  obtain ⟨hx, hx'⟩ | ⟨a, a', stage, stage', hx, hx', ha, hstage⟩ := h.view.hands_cases k
  · simpa [perform, Move.action, step, hm.hands_seat, hm'.hands_seat, hx, hx'] using h
  · cases hstage with
    | running run left =>
      obtain rfl := hm.work_id hs hx
      simp only [perform, Move.action, step_turn (mem_seats hx).2, step_turn (mem_seats hx').2,
        become_put, become_pass, become_system, ← ha.token] at hputs ⊢
      have halike := turn_told hapart h.world (fun t ht => h.view.tokens hx ht) hputs
      have hpass := h.pass halike.world
      exact hpass.onward { hm with } { hm' with } hx hx' ha (stage_same halike)
    | _ => simpa [perform, Move.action, step, hm.hands_seat, hm'.hands_seat, hx, hx'] using h

theorem alike_perform (hapart : eng.services.Apart d asks tokens R)
    (h : m.Alike d (tokens id) R id m') (hm : m.Placed) (hm' : m'.Placed) (hs : m.system.Sound)
    (hs' : m'.system.Sound) {move : Move σ} (hmove : move.Private (tokens id) R id)
    (hputs : Puts (asks id) id (eng.perform m' (id, move)).system.world.2) :
    (eng.perform m (id, move)).Alike d (tokens id) R id (eng.perform m' (id, move)) := by
  cases move with
  | create pipe =>
    have hcatalog : m.system.catalog = m'.system.catalog := h.view.catalog
    simp only [perform, Move.action, step, hcatalog]
    cases Keyed.get? m'.system.catalog pipe with
    | none => simpa using h
    | some p => exact alike_begin h hm hm' p
  | start pipe => exact alike_begin h hm hm' pipe
  | takeUp => exact alike_takeUp h hm hm' hs hs'
  | withGlobal k global =>
    exact alike_amend h hm hm' k (fun _ _ ha => ha.withGlobal global) (fun _ => rfl)
      fun _ _ ht => .inl ht
  | withSid k sid =>
    exact alike_amend h hm hm' k (fun _ _ ha => ha.withSid sid) (fun _ => rfl)
      fun _ _ ht => .inl ht
  | withToken k token =>
    refine alike_amend h hm hm' k (fun _ _ ha => ha.withToken token) (fun _ => rfl) ?_
    rintro a _ ⟨⟩
    exact .inr hmove
  | exec k input => exact alike_exec h hm hm' k input
  | resume k answers => exact alike_resume h hm hm' k answers
  | turn k => exact alike_turn hapart h hm hm' hs k hputs
  | settle k => exact alike_settle h hm hm' hs k (hapart.now h.world.1)
  | drop k => exact alike_drop h hm hm' k
  | close => exact alike_close h
  | outside f =>
    simp only [perform, Move.action, step, become_pass, become_system]
    exact h.pass ⟨hmove.1 _ _ h.world.1, h.world.2⟩

/-- Only turns and what clients do outside change the world. -/
theorem world_perform (m : Meeting σ) (id : String) (move : Move σ) :
    (eng.perform m (id, move)).system.world = m.system.world ∨
      (∃ f, move = .outside f ∧
        (eng.perform m (id, move)).system.world = (f m.system.world.1, m.system.world.2)) ∨
      ∃ k a run left, m.system.hands (m.seat id k) = some ⟨a, .running run left⟩ ∧
        (eng.perform m (id, move)).system.world =
          ((eng.signed id).turn a.token ⟨⟨run, m.system.world⟩, left⟩).scene.world := by
  have hquiet {act : Action (σ × Signed)} (ht : ∀ h, act ≠ .turn h) (ho : ∀ w, act ≠ .outside w) :
      ((eng.signed id).step m.system act).world = m.system.world := world_step act ht ho
  cases move with
  | turn k =>
    cases hx : m.system.hands (m.seat id k) with
    | none => simp [perform, Move.action, step, hx]
    | some x =>
      obtain ⟨a, stage⟩ := x
      cases stage with
      | running run left =>
        refine .inr (.inr ⟨k, a, run, left, hx, ?_⟩)
        simp only [perform, Move.action, step_turn hx, become_put, become_pass]
        rfl
      | _ => simp [perform, Move.action, step, hx]
  | outside f => exact .inr (.inl ⟨f, rfl, rfl⟩)
  | _ => exact .inl (hquiet (by rintro _ ⟨⟩) (by rintro _ ⟨⟩))

theorem unseen_perform (hapart : eng.services.Apart d asks tokens R) (hm : m.Placed)
    (hs : m.system.Sound) (hne : id ≠ other) {move : Move σ}
    (hmove : move.Private (tokens id) R id)
    (hputs : Puts (asks id) id (eng.perform m (id, move)).system.world.2) :
    Told R other m.system.world (eng.perform m (id, move)).system.world := by
  obtain hw | ⟨f, rfl, hw⟩ | ⟨k, a, run, left, hx, hw⟩ := eng.world_perform m id move
  · rw [hw]
    exact ⟨(hapart.equivalence other).refl _, rfl⟩
  · rw [hw]
    exact ⟨hmove.2 other _ hne.symm, rfl⟩
  · obtain rfl := hm.work_id hs ((hm.hands_seat id k).symm.trans hx)
    rw [hw] at hputs ⊢
    exact turn_unseen hapart hne hputs

theorem calls_perform (m : Meeting σ) (id : String) (move : Move σ) :
    m.system.world.2 <+: (eng.perform m (id, move)).system.world.2 := by
  obtain hw | ⟨f, -, hw⟩ | ⟨k, a, run, left, -, hw⟩ := eng.world_perform m id move
  · exact ⟨[], by rw [hw, List.append_nil]⟩
  · exact ⟨[], by rw [hw, List.append_nil]⟩
  · rw [hw]
    exact turn_signed_grows a.token ⟨⟨run, m.system.world⟩, left⟩

theorem Puts.of_perform {asks : RenderRequest → Bool} {move : Move σ}
    (h : Puts asks id (eng.perform m (id, move)).system.world.2) :
    Puts asks id m.system.world.2 := by
  obtain ⟨calls, hcalls⟩ := eng.calls_perform m id move
  intro r hr
  refine h r ?_
  rw [← hcalls, Signed.of_append]
  exact List.mem_append_left _ hr

theorem meet_concat (m : Meeting σ) (steps : List (String × Move σ)) (step : String × Move σ) :
    eng.meet m (steps ++ [step]) = eng.perform (eng.meet m steps) step := by
  simp [meet]

theorem sound_perform (eng : Engine σ) (hm : m.Placed) (hs : m.system.Sound)
    (step : String × Move σ) :
    (eng.perform m step).Placed ∧ (eng.perform m step).system.Sound :=
  ⟨(eng.deed_perform hm hs step.1 step.2).placed, hs.change ((eng.signed step.1).step_change ..)⟩

theorem sound_meet (eng : Engine σ) (hm : m.Placed) (hs : m.system.Sound)
    (steps : List (String × Move σ)) :
    (eng.meet m steps).Placed ∧ (eng.meet m steps).system.Sound := by
  induction steps using List.reverseRecOn with
  | nil => exact ⟨hm, hs⟩
  | append_singleton steps step ih =>
    rw [meet_concat]
    exact eng.sound_perform ih.1 ih.2 step

theorem alone_concat_self (id : String) (steps : List (String × Move σ)) (move : Move σ) :
    alone id (steps ++ [(id, move)]) = alone id steps ++ [(id, move)] := by
  simp [alone]

theorem alone_concat_of_ne (hne : other ≠ id) (steps : List (String × Move σ)) (move : Move σ) :
    alone id (steps ++ [(other, move)]) = alone id steps := by
  simp [alone, hne]

/-- However the moves of the clients are mixed, none can tell whether it is alone. -/
theorem alike_meet (hapart : eng.services.Apart d asks tokens R) (hm : m.Placed)
    (hs : m.system.Sound) (htokens : ∀ id k x token, (m.view id).hands k = some x →
      x.attempt.token = some token → tokens id token) {steps : List (String × Move σ)}
    (hprivate : ∀ id move, (id, move) ∈ steps → move.Private (tokens id) R id)
    (hputs : ∀ id, Puts (asks id) id (eng.meet m (alone id steps)).system.world.2) (id : String) :
    (eng.meet m steps).Alike d (tokens id) R id (eng.meet m (alone id steps)) := by
  induction steps using List.reverseRecOn generalizing id with
  | nil => exact ⟨.refl (htokens id _ _ _), (hapart.equivalence id).refl _, rfl⟩
  | append_singleton steps step ih =>
    obtain ⟨who, move⟩ := step
    have hmove : move.Private (tokens who) R who := hprivate who move (by simp)
    have hprivate' (id : String) (move : Move σ) (h : (id, move) ∈ steps) :
        move.Private (tokens id) R id := hprivate id move (by simp [h])
    have hputs' (id : String) :
        Puts (asks id) id (eng.meet m (alone id steps)).system.world.2 := by
      by_cases hid : who = id
      · subst hid
        have hlast := hputs who
        rw [alone_concat_self, meet_concat] at hlast
        exact hlast.of_perform
      · rw [← alone_concat_of_ne hid steps move]
        exact hputs id
    have halike := ih hprivate' hputs'
    obtain ⟨hm₁, hs₁⟩ := eng.sound_meet hm hs steps
    obtain ⟨hm₂, hs₂⟩ := eng.sound_meet hm hs (alone who steps)
    have hlast := hputs who
    rw [alone_concat_self, meet_concat] at hlast
    -- First whoever moves: with its calls it is known that the questions it puts are its own, and
    -- only so that the others do not see the move.
    have hself := alike_perform hapart (halike who) hm₁ hm₂ hs₁ hs₂ hmove hlast
    rw [meet_concat]
    by_cases hid : who = id
    · subst hid
      rw [alone_concat_self, meet_concat]
      exact hself
    · rw [alone_concat_of_ne hid]
      have hdeed := eng.deed_perform hm₁ hs₁ who move
      have hown : Puts (asks who) who
          (eng.perform (eng.meet m steps) (who, move)).system.world.2 := by
        rw [Puts, hself.world.2]
        exact hlast
      have hunseen := unseen_perform hapart hm₁ hs₁ hid hmove hown
      have hback := (hapart.equivalence id).symm hunseen.1
      refine ⟨?_, (hapart.equivalence id).trans hback (halike id).world.1,
        hunseen.2.symm.trans (halike id).world.2⟩
      rw [hdeed.others (Ne.symm hid)]
      exact (halike id).view

end Engine

theorem Entry.Same.euclidean {o o' o'' : Option Entry} (h : Option.Rel (Entry.Same d) o o'')
    (h' : Option.Rel (Entry.Same d) o' o'') : Option.Rel (Entry.Same d) o o' := by
  cases h with
  | none =>
    cases h' with
    | none => exact .none
  | some he =>
    cases h' with
    | some he' =>
      exact .some ⟨he.run.trans he'.run.symm, he.lease.trans he'.lease.symm,
        he.since.trans he'.since.symm⟩

theorem Entry.Same.takeUp {s s' : ParkedRuns} {id : String}
    (h : Option.Rel (Entry.Same d) (s.get? id) (s'.get? id)) :
    (Attempt.takeUp s id).map (·.1.run.redate d) =
      (Attempt.takeUp s' id).map (·.1.run.redate d) := by
  unfold Attempt.takeUp ParkedRuns.checkout
  generalize s.get? id = entry at h
  generalize s'.get? id = entry' at h
  cases h with
  | none => rfl
  | @some e e' he =>
    obtain ⟨run, lease, since⟩ := e
    obtain ⟨run', lease', since'⟩ := e'
    obtain ⟨hrun, hlease, -⟩ := he
    cases lease with
    | none =>
      cases lease' with
      | none => exact congrArg Except.ok hrun
      | some => cases hlease
    | some =>
      cases lease' with
      | none => cases hlease
      | some => rfl

namespace Engine

open Meeting

variable (eng : Engine σ) {asks : String → RenderRequest → Bool}
  {tokens : String → String → Prop} {R : String → σ → σ → Prop}

/-- Clients with different runs do not interfere. Mixed with the moves of all the others, those of a
client come to what they come to alone: to the same attempts with the same results, the same calls,
prompts and events, and to the same if the run is taken up next. The entries that are left do not
depend on how the moves are mixed. -/
theorem runs_apart (hapart : eng.services.Apart d asks tokens R) (w : σ) (before : List (Action σ))
    (htokens : ∀ h x token, (eng.play (.init w) before).hands h = some x →
      x.attempt.token = some token → tokens x.attempt.run.id token)
    {steps : List (String × Move σ)}
    (hprivate : ∀ id move, (id, move) ∈ steps → move.Private (tokens id) R id)
    (hputs : ∀ id r, .render r ∈ (eng.meet (gather (eng.play (.init w) before))
      (alone id steps)).calls id → asks id r = true) :
    let m := gather (eng.play (.init w) before)
    (∀ id, ((eng.meet m steps).view id).Same d ((eng.meet m (alone id steps)).view id) ∧
      (eng.meet m steps).calls id = (eng.meet m (alone id steps)).calls id ∧
      (Attempt.takeUp (eng.meet m steps).system.parked id).map (·.1.run.redate d) =
        (Attempt.takeUp (eng.meet m (alone id steps)).system.parked id).map (·.1.run.redate d)) ∧
    ∀ steps', (∀ id, alone id steps' = alone id steps) → ∀ id,
      Option.Rel (Entry.Same d) ((eng.meet m steps).system.parked.get? id)
        ((eng.meet m steps').system.parked.get? id) := by
  intro m
  have hs := System.sound_play eng w before
  have hm : m.Placed := placed_gather hs
  have hheld : ∀ id k x token, (m.view id).hands k = some x → x.attempt.token = some token →
      tokens id token := by
    intro id k x token hx ht
    obtain ⟨-, hx'⟩ := mem_seats hx
    exact hm.run_id hx ▸ htokens _ x token hx' ht
  have halike := alike_meet hapart hm (sound_gather hs) hheld hprivate hputs
  refine ⟨fun id => ⟨(halike id).view.toSame, (halike id).world.2,
    Entry.Same.takeUp (halike id).view.entry⟩, fun steps' halone id => ?_⟩
  have hprivate' : ∀ id move, (id, move) ∈ steps' → move.Private (tokens id) R id := by
    intro id move hmem
    have hown : (id, move) ∈ alone id steps' := by simpa [alone] using hmem
    rw [halone id] at hown
    exact hprivate id move (List.mem_filter.mp hown).1
  have hputs' : ∀ id, Puts (asks id) id (eng.meet m (alone id steps')).system.world.2 := by
    intro id
    rw [halone id]
    exact hputs id
  have halike' := alike_meet hapart hm (sound_gather hs) hheld hprivate' hputs' id
  rw [halone id] at halike'
  exact Entry.Same.euclidean (halike id).view.entry halike'.view.entry

end Engine

def tallyServices : Services (String → Nat) where
  process _ _ c w := (.ok (.int (w c.run)), Function.update w c.run (w c.run + 1))
  request payload c w := (.ok payload, Function.update w c.run (w c.run + 1))
  chat _ c w := (⟨["yes"], .ok ""⟩, Function.update w c.run (w c.run + 1))
  render _ w := (.ok [], w)
  notify hook w := Function.update w hook.context.run (w hook.context.run + 1)
  isCancelled token w := 100 ≤ w token
  now _ := default

def tallyEngine : Engine (String → Nat) := { countingEngine with services := tallyServices }

theorem tallyServices_apart : tallyServices.Apart id (fun _ _ => true)
    (fun run token => token = run) fun run w v => w run = v run := by
  have hsame {run : String} {w v : String → Nat} (hw : w run = v run) {other : String}
      (ho : other = run) :
      Function.update w other (w other + 1) run = Function.update v other (v other + 1) run := by
    subst ho
    simp [hw]
  have hunseen {run : String} (w : String → Nat) {other : String} (ho : other ≠ run) :
      w run = Function.update w other (w other + 1) run := by
    simp [Function.update_of_ne (Ne.symm ho)]
  exact {
    equivalence := fun run => ⟨fun _ => rfl, fun h => h.symm, fun h h' => h.trans h'⟩
    process := fun hw _ hc _ _ => ⟨by subst hc; simp [tallyServices, hw], hsame hw hc⟩
    request := fun hw _ hc _ => ⟨rfl, hsame hw hc⟩
    chat := fun hw _ hc _ => ⟨rfl, hsame hw hc⟩
    render := fun hw _ _ => ⟨rfl, hw⟩
    notify := fun hw _ hc => hsame hw hc
    isCancelled := fun hw _ ht => by subst ht; simp [tallyServices, hw]
    now := fun _ => rfl
    process_unseen := fun w _ hc _ _ => hunseen w hc
    request_unseen := fun w _ hc _ => hunseen w hc
    chat_unseen := fun w _ hc _ => hunseen w hc
    render_unseen := fun _ _ _ _ => rfl
    notify_unseen := fun w _ hc => hunseen w hc }

def tallySteps : List (String × Move (String → Nat)) :=
  [("p", .start askingPipe), ("q", .start skippingPipe), ("p", .exec 0 []), ("q", .withToken 0 "q"),
    ("p", .turn 0), ("q", .exec 0 []), ("q", .turn 0), ("p", .turn 0), ("q", .turn 0),
    ("p", .settle 0), ("q", .outside fun w => Function.update w "q" 100), ("p", .drop 0),
    ("p", .takeUp), ("q", .turn 0), ("p", .resume 1 [.str "yes"]), ("q", .settle 0),
    ("p", .turn 1), ("q", .close), ("p", .turn 1), ("p", .turn 1)]

theorem tallySteps_private : ∀ step ∈ tallySteps,
    step.2.Private (· = step.1) (fun run w v => w run = v run) step.1 := by
  have houtside (other : String) (w : String → Nat) (hne : other ≠ "q") :
      w other = Function.update w "q" 100 other := (Function.update_of_ne hne ..).symm
  simpa [tallySteps, Move.Private] using houtside

theorem runs_apart_tallySteps :
    tallyServices.Apart id (fun _ _ => true) (fun run token => token = run)
        (fun run w v => w run = v run) ∧
      (tallyEngine.meet (.gather (.init fun _ => 0)) tallySteps).calls "p" =
        [.process "note" (.str "asked") ⟨"main:pick", "p", "note", "", []⟩,
          .process "tell" .null ⟨"main", "p", "tell", "", []⟩] := by
  have halone : (tallyEngine.meet (.gather (.init fun _ => 0)) (alone "p" tallySteps)).calls "p" =
      [.process "note" (.str "asked") ⟨"main:pick", "p", "note", "", []⟩,
        .process "tell" .null ⟨"main", "p", "tell", "", []⟩] := by
    decide +kernel
  obtain ⟨hmeet, -⟩ := tallyEngine.runs_apart tallyServices_apart (fun _ => 0) []
    (by rintro h x token ⟨⟩) (fun id move h => tallySteps_private (id, move) h) (fun _ _ _ => rfl)
  exact ⟨tallyServices_apart, (hmeet "p").2.1.trans halone⟩

end Pipework
