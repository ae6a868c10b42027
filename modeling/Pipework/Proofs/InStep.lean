import Pipework.Proofs.Meeting

/-!
# Views that differ in nothing but numbers

Leases are numbered for all runs together, so a client that has the engine to itself gets other
numbers than in company; dates may differ as well. Views in step agree in all the rest, and in which
attempts have the entry on lease. Whatever is done to both of them keeps them in step.
-/

namespace Pipework

variable {σ : Type} {d : Instant → Instant}

def Run.redate (d : Instant → Instant) (r : Run) : Run :=
  { r with paused := r.paused.map (·.redate d) }

namespace Run

variable {r r' : Run}

theorem eq_of_redate (h : r.redate d = r'.redate d) : r' = { r with paused := r'.paused } := by
  obtain ⟨id, sid, global, memory, stack, paused⟩ := r
  obtain ⟨id', sid', global', memory', stack', paused'⟩ := r'
  simp only [redate, mk.injEq] at h
  obtain ⟨rfl, rfl, rfl, rfl, rfl, -⟩ := h
  rfl

theorem isSome_of_redate (h : r.redate d = r'.redate d) : r.paused.isSome = r'.paused.isSome := by
  have hpaused := congrArg (·.paused.isSome) h
  simpa [redate] using hpaused

theorem restart_of_redate (h : r.redate d = r'.redate d) (ev : Evaluator) (input : List Json) :
    r.restart ev input = r'.restart ev input := by
  rw [eq_of_redate h]
  rfl

theorem answer_of_redate (h : r.redate d = r'.redate d) (ev : Evaluator) (answers : List Json) :
    r.answer ev answers = r'.answer ev answers := by
  rw [eq_of_redate h]
  rfl

end Run

structure Attempt.Same (d : Instant → Instant) (a a' : Attempt) : Prop where
  run : a.run.redate d = a'.run.redate d
  lease : a.lease.isSome = a'.lease.isSome
  token : a.token = a'.token

inductive Stage.Same (d : Instant → Instant) : Stage → Stage → Prop
  | idle : Same d .idle .idle
  | running (run : Run) (left : Nat) : Same d (.running run left) (.running run left)
  | ended {result result' : Except RunError Ending} {run run' : Run}
      (hresult : result.map (Ending.redate d) = result'.map (Ending.redate d))
      (hrun : run.redate d = run'.redate d) : Same d (.ended result run) (.ended result' run')
  | settled : Same d .settled .settled

structure Hand.Same (d : Instant → Instant) (x x' : Hand) : Prop where
  attempt : x.attempt.Same d x'.attempt
  stage : x.stage.Same d x'.stage

structure Entry.Same (d : Instant → Instant) (e e' : Entry) : Prop where
  run : e.run.redate d = e'.run.redate d
  lease : e.lease.isSome = e'.lease.isSome
  since : d e.since = d e'.since

inductive Event.Same (d : Instant → Instant) : Event → Event → Prop
  | parked {run run' : Run} (hrun : run.redate d = run'.redate d) :
      Same d (.parked run) (.parked run')
  | opened (id : String) {lease lease' : Option Nat} (hlease : lease.isSome = lease'.isSome)
      (serial : Nat) : Same d (.opened id lease serial) (.opened id lease' serial)
  | ended (id : String) {lease lease' : Option Nat} (hlease : lease.isSome = lease'.isSome)
      {result result' : Except RunError Ending}
      (hresult : result.map (Ending.redate d) = result'.map (Ending.redate d)) :
      Same d (.ended id lease result) (.ended id lease' result')
  | closed (id : String) : Same d (.closed id) (.closed id)
  | pruned (id : String) : Same d (.pruned id) (.pruned id)

theorem Stage.Same.refl (stage : Stage) : stage.Same d stage := by
  cases stage with
  | idle => exact .idle
  | running run left => exact .running run left
  | ended result run => exact .ended rfl rfl
  | settled => exact .settled

theorem Event.Same.refl (e : Event) : e.Same d e := by
  cases e with
  | parked run => exact .parked rfl
  | opened id lease serial => exact .opened id rfl serial
  | ended id lease result => exact .ended id rfl rfl
  | closed id => exact .closed id
  | pruned id => exact .pruned id

theorem Event.Same.about {e e' : Event} (h : e.Same d e') (id : String) :
    e.about id = e'.about id := by
  cases h with
  | @parked run run' hrun =>
    have hid : run'.id = run.id := by rw [Run.eq_of_redate hrun]
    simp only [Event.about, hid]
  | _ => rfl

theorem parkings_same {id : String} {log log' : List Event}
    (h : List.Forall₂ (Event.Same d) (log.filter (·.about id)) (log'.filter (·.about id))) :
    parkings id log = parkings id log' := by
  have hown (log : List Event) :
      parkings id log = ((log.filter (·.about id)).filter (·.parks id)).length := by
    rw [List.filter_filter, parkings, List.countP_eq_length_filter]
    refine congrArg _ (List.filter_congr fun e _ => ?_)
    cases e <;> simp [Event.parks, Event.about]
  have hparks {e e' : Event} (he : e.Same d e') : e.parks id = e'.parks id := by
    have habout := he.about id
    cases he with
    | parked => exact habout
    | _ => rfl
  rw [hown, hown]
  exact (List.rel_filter (fun e e' he => Bool.eq_iff_iff.mp (hparks he)) h).length_eq

structure View.Same (d : Instant → Instant) (v v' : View) : Prop where
  catalog : v.catalog = v'.catalog
  known : v.known ↔ v'.known
  entry : Option.Rel (Entry.Same d) v.entry v'.entry
  made : v.made = v'.made
  hands (k : Nat) : Option.Rel (Hand.Same d) (v.hands k) (v'.hands k)
  events : List.Forall₂ (Event.Same d) v.events v'.events

structure View.InStep (d : Instant → Instant) (tokens : String → Prop) (v v' : View) : Prop
    extends v.Same d v' where
  tied {k : Nat} {x x' : Hand} {e e' : Entry} : v.hands k = some x → v'.hands k = some x' →
    v.entry = some e → v'.entry = some e' →
    (x.attempt.lease = e.lease ↔ x'.attempt.lease = e'.lease)
  tokens {k : Nat} {x : Hand} {token : String} : v.hands k = some x →
    x.attempt.token = some token → tokens token

namespace Attempt.Same

variable {a a' : Attempt}

theorem withGlobal (h : a.Same d a') (global : Keyed Json) :
    (a.withGlobal global).Same d (a'.withGlobal global) :=
  ⟨congrArg (·.withGlobal global) h.run, h.lease, h.token⟩

theorem withSid (h : a.Same d a') (sid : String) : (a.withSid sid).Same d (a'.withSid sid) :=
  ⟨congrArg (·.withSid sid) h.run, h.lease, h.token⟩

theorem withToken (h : a.Same d a') (token : String) :
    (a.withToken token).Same d (a'.withToken token) :=
  ⟨h.run, h.lease, rfl⟩

theorem begin (h : a.Same d a') (limit : Nat) (ready : Except RunError Run) :
    (Stage.begin a limit ready).Same d (Stage.begin a' limit ready) := by
  cases ready with
  | error e => exact .ended rfl h.run
  | ok run => exact .running run limit

end Attempt.Same

theorem eq_none_iff_of_isSome {α : Type} {o o' : Option α} (h : o.isSome = o'.isSome) :
    o = none ↔ o' = none := by
  cases o <;> cases o' <;> simp_all

namespace View.InStep

variable {tokens : String → Prop} {v v' : View}

theorem refl (htokens : ∀ {k x token}, v.hands k = some x → x.attempt.token = some token →
    tokens token) : v.InStep d tokens v where
  catalog := rfl
  known := Iff.rfl
  entry := by
    cases v.entry with
    | none => exact .none
    | some e => exact .some ⟨rfl, rfl, rfl⟩
  made := rfl
  hands k := by
    cases v.hands k with
    | none => exact .none
    | some x => exact .some ⟨⟨rfl, rfl, rfl⟩, .refl x.stage⟩
  events := List.forall₂_same.mpr fun e _ => .refl e
  tied hx hx' he he' := by
    obtain rfl := Option.some.inj (hx.symm.trans hx')
    obtain rfl := Option.some.inj (he.symm.trans he')
    exact Iff.rfl
  tokens := htokens

theorem hands_cases (h : v.InStep d tokens v') (k : Nat) :
    v.hands k = none ∧ v'.hands k = none ∨ ∃ a a' stage stage', v.hands k = some ⟨a, stage⟩ ∧
      v'.hands k = some ⟨a', stage'⟩ ∧ a.Same d a' ∧ stage.Same d stage' := by
  have hrel := h.hands k
  generalize v.hands k = hand at hrel ⊢
  generalize v'.hands k = hand' at hrel ⊢
  cases hrel with
  | none => exact .inl ⟨rfl, rfl⟩
  | @some x x' hx => exact .inr ⟨_, _, _, _, rfl, rfl, hx.attempt, hx.stage⟩

theorem put (h : v.InStep d tokens v') (k : Nat) {y y' : Option Hand}
    (hy : Option.Rel (Hand.Same d) y y')
    (htied : ∀ x x' e e', y = some x → y' = some x' → v.entry = some e → v'.entry = some e' →
      (x.attempt.lease = e.lease ↔ x'.attempt.lease = e'.lease))
    (htokens : ∀ x token, y = some x → x.attempt.token = some token → tokens token) :
    (v.put k y).InStep d tokens (v'.put k y') where
  catalog := h.catalog
  known := h.known
  entry := h.entry
  made := h.made
  hands j := by
    simp only [View.put, Function.update_apply]
    split
    · exact hy
    · exact h.hands j
  events := h.events
  tied {j x x' e e'} hx hx' he he' := by
    simp only [View.put, Function.update_apply] at hx hx'
    split at hx
    next hj =>
      rw [if_pos hj] at hx'
      exact htied x x' e e' hx hx' he he'
    next hj =>
      rw [if_neg hj] at hx'
      exact h.tied hx hx' he he'
  tokens {j x token} hx ht := by
    simp only [View.put, Function.update_apply] at hx
    split at hx
    · exact htokens x token hx ht
    · exact h.tokens hx ht

theorem clear (h : v.InStep d tokens v') (k : Nat) :
    (v.put k none).InStep d tokens (v'.put k none) :=
  h.put k .none (by simp) (by simp)

theorem amend (h : v.InStep d tokens v') {k : Nat} {x x' : Hand} (hx : v.hands k = some x)
    (hx' : v'.hands k = some x') {y y' : Hand} (hy : y.Same d y')
    (hlease : y.attempt.lease = x.attempt.lease) (hlease' : y'.attempt.lease = x'.attempt.lease)
    (htoken : ∀ token, y.attempt.token = some token → tokens token) :
    (v.put k (some y)).InStep d tokens (v'.put k (some y')) := by
  refine h.put k (.some hy) ?_ ?_
  · rintro z z' e e' ⟨⟩ ⟨⟩ he he'
    rw [hlease, hlease']
    exact h.tied hx hx' he he'
  · rintro z token ⟨⟩ ht
    exact htoken token ht

theorem hold (h : v.InStep d tokens v') {a a' : Attempt} (ha : a.Same d a')
    (htied : ∀ e e', v.entry = some e → v'.entry = some e' →
      (a.lease = e.lease ↔ a'.lease = e'.lease))
    (htoken : a.token = none) : (v.hold a).InStep d tokens (v'.hold a') := by
  have hput : (v.put v.made (some ⟨a, .idle⟩)).InStep d tokens
      (v'.put v'.made (some ⟨a', .idle⟩)) := by
    rw [← h.made]
    refine h.put v.made (.some ⟨ha, .idle⟩) ?_ ?_
    · rintro x x' e e' ⟨⟩ ⟨⟩ he he'
      exact htied e e' he he'
    · rintro x token ⟨⟩ ht
      rw [htoken] at ht
      cases ht
  exact { hput with made := congrArg Nat.succ h.made }

theorem file (h : v.InStep d tokens v') {entry entry' : Option Entry}
    (hentry : Option.Rel (Entry.Same d) entry entry')
    (htied : ∀ k x x' e e', v.hands k = some x → v'.hands k = some x' → entry = some e →
      entry' = some e' → (x.attempt.lease = e.lease ↔ x'.attempt.lease = e'.lease)) :
    (v.file entry).InStep d tokens (v'.file entry') where
  catalog := h.catalog
  known := h.known
  entry := hentry
  made := h.made
  hands := h.hands
  events := h.events
  tied hx hx' he he' := htied _ _ _ _ _ hx hx' he he'
  tokens := h.tokens

theorem free (h : v.InStep d tokens v') {entry entry' : Option Entry}
    (hentry : Option.Rel (Entry.Same d) entry entry')
    (hfree : ∀ e, entry = some e → e.lease = none) :
    (v.file entry).InStep d tokens (v'.file entry') := by
  refine h.file hentry fun k x x' e e' hx hx' he he' => ?_
  have hlease : x.attempt.lease.isSome = x'.attempt.lease.isSome := by
    have hhands := h.hands k
    rw [hx, hx'] at hhands
    cases hhands with
    | some hsame => exact hsame.attempt.lease
  have hfree' : e'.lease = none := by
    rw [he, he'] at hentry
    cases hentry with
    | some hsame => simpa [hfree e he] using hsame.lease
  rw [hfree e he, hfree']
  exact eq_none_iff_of_isSome hlease

theorem keep (h : v.InStep d tokens v') {events events' : List Event}
    (hevents : List.Forall₂ (Event.Same d) events events') :
    (v.keep events).InStep d tokens (v'.keep events') :=
  { h with events := List.rel_append h.events hevents }

theorem know (h : v.InStep d tokens v') : v.know.InStep d tokens v'.know :=
  { h with known := Iff.rfl }

theorem abandon (h : v.InStep d tokens v') {k : Nat} {x x' : Hand} (hx : v.hands k = some x)
    (hx' : v'.hands k = some x') {id : String} (hid : x.attempt.run.id = id)
    (hid' : x'.attempt.run.id = id) {s s' : ParkedRuns} (hs : s.get? id = v.entry)
    (hs' : s'.get? id = v'.entry) :
    (v.file ((x.attempt.abandon s).get? id)).InStep d tokens
      (v'.file ((x'.attempt.abandon s').get? id)) := by
  rw [Attempt.get?_abandon, Attempt.get?_abandon, hid, hid', hs, hs']
  have hentry := h.entry
  have htied := @h.tied
  generalize v.entry = entry at hentry htied
  generalize v'.entry = entry' at hentry htied
  cases hentry with
  | none => exact h.free .none (by simp)
  | @some e e' he =>
    by_cases hl : e.lease = x.attempt.lease
    · have hl' : e'.lease = x'.attempt.lease := ((htied hx hx' rfl rfl).mp hl.symm).symm
      simp only [Option.map_some, hl, hl', and_self, if_true]
      refine h.free (.some ⟨he.run, rfl, he.since⟩) ?_
      rintro _ ⟨⟩
      rfl
    · have hl' : e'.lease ≠ x'.attempt.lease :=
        fun hl' => hl ((htied hx hx' rfl rfl).mpr hl'.symm).symm
      simp only [Option.map_some, hl, hl', and_false, if_false]
      refine h.file (.some he) ?_
      rintro j z z' _ _ hz hz' ⟨⟩ ⟨⟩
      exact htied hz hz' rfl rfl

end View.InStep

theorem Attempt.Same.file {a a' : Attempt} (h : a.Same d a') {id : String} (hid : a.run.id = id)
    (hid' : a'.run.id = id) {result result' : Except RunError Ending}
    (hresult : result.map (Ending.redate d) = result'.map (Ending.redate d)) {run run' : Run}
    (hrun : run.redate d = run'.redate d) (hrid : run.id = id) {now now' : Instant}
    (hnow : d now = d now') {s s' : ParkedRuns}
    (hentry : Option.Rel (Entry.Same d) (s.get? id) (s'.get? id))
    (htied : ∀ e e', s.get? id = some e → s'.get? id = some e' →
      (a.lease = e.lease ↔ a'.lease = e'.lease)) :
    List.Forall₂ (Event.Same d) (a.report result run s) (a'.report result' run' s') ∧
      ((a.file result run now s).get? id = s.get? id ∧
          (a'.file result' run' now' s').get? id = s'.get? id ∨
        Option.Rel (Entry.Same d) ((a.file result run now s).get? id)
            ((a'.file result' run' now' s').get? id) ∧
          ∀ e, (a.file result run now s).get? id = some e → e.lease = none) := by
  have hrid' : run'.id = id := by rw [Run.eq_of_redate hrun, ← hrid]
  have hended : Event.Same d (.ended a.run.id a.lease result)
      (.ended a'.run.id a'.lease result') := by
    rw [hid, hid']
    exact .ended id h.lease hresult
  have hremoved : Option.Rel (Entry.Same d) ((s.remove a.run.id).get? id)
      ((s'.remove a'.run.id).get? id) ∧
        ∀ e, (s.remove a.run.id).get? id = some e → e.lease = none := by
    rw [ParkedRuns.get?_remove, ParkedRuns.get?_remove, if_pos hid.symm, if_pos hid'.symm]
    exact ⟨.none, by simp⟩
  have hparked : Option.Rel (Entry.Same d) ((s.park run none now).get? id)
      ((s'.park run' none now').get? id) ∧
        ∀ e, (s.park run none now).get? id = some e → e.lease = none := by
    rw [ParkedRuns.get?_park, ParkedRuns.get?_park, if_pos hrid.symm, if_pos hrid'.symm]
    refine ⟨.some ⟨hrun, rfl, hnow⟩, ?_⟩
    rintro _ ⟨⟩
    rfl
  obtain ⟨e, rfl, rfl⟩ | ⟨x, y, rfl, rfl, hxy⟩ := map_eq_map hresult
  · cases e with
    | cancelled other => exact ⟨.cons hended .nil, .inl ⟨rfl, rfl⟩⟩
    | _ => exact ⟨.cons hended .nil, .inr hremoved⟩
  · cases x with
    | completed value =>
      cases y with
      | completed value' => exact ⟨.cons hended .nil, .inr hremoved⟩
      | suspended => cases hxy
    | suspended snapshot =>
      cases y with
      | completed => cases hxy
      | suspended snapshot' =>
        obtain ⟨r, lease, token⟩ := a
        obtain ⟨r', lease', token'⟩ := a'
        have hboth : List.Forall₂ (Event.Same d) [.ended r.id lease (.ok (.suspended snapshot)),
            .parked run] [.ended r'.id lease' (.ok (.suspended snapshot')), .parked run'] :=
          .cons hended (.cons (.parked hrun) .nil)
        have hl : lease.isSome = lease'.isSome := h.lease
        cases lease with
        | none =>
          cases lease' with
          | none => exact ⟨hboth, .inr hparked⟩
          | some => cases hl
        | some lease =>
          cases lease' with
          | none => cases hl
          | some lease' =>
            have hheld : s.heldBy run.id lease = s'.heldBy run'.id lease' := by
              rw [hrid, hrid', Bool.eq_iff_iff, s.heldBy_iff, s'.heldBy_iff]
              generalize s.get? id = entry at hentry htied
              generalize s'.get? id = entry' at hentry htied
              cases hentry with
              | none => simp
              | @some e e' he => simpa [eq_comm] using htied e e' rfl rfl
            simp only [Attempt.file, Attempt.report]
            rw [← hheld]
            cases hh : s.heldBy run.id lease with
            | true =>
              rw [s.park_of_held hh, s'.park_of_held (hheld ▸ hh)]
              exact ⟨hboth, .inr hparked⟩
            | false =>
              rw [s.park_of_not_held hh, s'.park_of_not_held (hheld ▸ hh)]
              exact ⟨.cons hended .nil, .inl ⟨rfl, rfl⟩⟩

theorem View.InStep.settle {tokens : String → Prop} {v v' : View} (h : v.InStep d tokens v')
    {k : Nat} {a a' : Attempt} {result result' : Except RunError Ending} {run run' : Run}
    (hx : v.hands k = some ⟨a, .ended result run⟩)
    (hx' : v'.hands k = some ⟨a', .ended result' run'⟩) (ha : a.Same d a')
    (hresult : result.map (Ending.redate d) = result'.map (Ending.redate d))
    (hrun : run.redate d = run'.redate d) {id : String} (hid : a.run.id = id)
    (hid' : a'.run.id = id) (hrid : run.id = id) {now now' : Instant} (hnow : d now = d now')
    {s s' : ParkedRuns} (hs : s.get? id = v.entry) (hs' : s'.get? id = v'.entry) :
    List.Forall₂ (Event.Same d) (a.report result run s) (a'.report result' run' s') ∧
      (v.file ((a.file result run now s).get? id)).InStep d tokens
        (v'.file ((a'.file result' run' now' s').get? id)) := by
  have hentry : Option.Rel (Entry.Same d) (s.get? id) (s'.get? id) := by
    rw [hs, hs']
    exact h.entry
  obtain ⟨hreport, hfile⟩ := ha.file hid hid' hresult hrun hrid hnow hentry
    fun e e' he he' => h.tied hx hx' (hs ▸ he) (hs' ▸ he')
  refine ⟨hreport, ?_⟩
  obtain ⟨hkept, hkept'⟩ | ⟨hentry, hfree⟩ := hfile
  · rw [hkept, hkept', hs, hs']
    exact h
  · exact h.free hentry hfree

end Pipework
