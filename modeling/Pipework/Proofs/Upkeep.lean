import Pipework.Proofs.Leases

/-!
# What all runs keep

A run is at rest while it is parked or in the hand of a client, and at work while a call takes turns
on it. What the operations on a single run keep, every step of the system keeps of all its runs.
-/

namespace Pipework

variable {σ : Type}

/-- What each operation keeps of a run at rest, of a run at work and of the end of a call. -/
structure Engine.Upkeep (eng : Engine σ) (rest work : Run → Prop)
    (post : Except RunError Ending → Run → Prop) : Prop where
  global {r : Run} (global : Keyed Json) : rest r → rest (r.withGlobal global)
  sid {r : Run} (sid : String) : rest r → rest (r.withSid sid)
  restart {r r' : Run} {input : List Json} : rest r → r.restart eng.evaluator input = .ok r' →
    work r'
  unready {r : Run} {e : RunError} {input : List Json} : rest r →
    r.restart eng.evaluator input = .error e → post (.error e) r
  answer {r r' : Run} {answers : List Json} : rest r → r.paused.isSome →
    r.answer eng.evaluator answers = .ok r' → work r'
  unanswered {r : Run} {e : RunError} {answers : List Json} : rest r → r.paused.isSome →
    r.answer eng.evaluator answers = .error e → post (.error e) r
  more {token : Option String} {l l' : Loop σ} : work l.scene.run → eng.turn token l = .more l' →
    work l'.scene.run
  done {token : Option String} {l : Loop σ} {result : Except RunError Ending} {t : Scene σ} :
    work l.scene.run → eng.turn token l = .done result t → post result t.run
  suspended {x : Snapshot} {r : Run} : post (.ok (.suspended x)) r → rest r

/-- A run that is begun under an id that no run has had. -/
inductive Action.Begins (s : System σ) : Action σ → String → Pipe → Prop
  | create {id name : String} {p : Pipe} : id ∉ s.ids → Keyed.get? s.catalog name = some p →
      Begins s (.create id name) id p
  | start {id : String} {p : Pipe} : id ∉ s.ids → Begins s (.start id p) id p

theorem Change.mem_ids {eng : Engine σ} {s s' : System σ} (h : Change eng s s') {id : String}
    (hid : id ∈ s.ids) : id ∈ s'.ids := by
  cases h with
  | begun => exact List.mem_cons_of_mem _ hid
  | outer | opened | onward | refused | settled | dropped | closed | pruned => exact hid

namespace Engine

variable {eng : Engine σ} {s : System σ} {id : String} {p q : Pipe} {act : Action σ}

theorem mem_ids_play (hid : id ∈ s.ids) (acts : List (Action σ)) : id ∈ (eng.play s acts).ids :=
  eng.play_induction (fun _ _ hc hmem => hc.mem_ids hmem) hid acts

theorem not_mem_of_begins (h : act.Begins s id p) : id ∉ s.ids := by
  cases h with
  | create hid _ => exact hid
  | start hid => exact hid

theorem mem_ids_of_begins (h : act.Begins s id p) : id ∈ (eng.step s act).ids := by
  have hbegin (hid : id ∉ s.ids) (p : Pipe) : id ∈ (s.begin id p).ids := by
    rw [System.begin, if_neg hid]
    exact List.mem_cons_self
  cases h with
  | create hid hp =>
    simp only [step, hp]
    exact hbegin hid p
  | start hid => exact hbegin hid p

theorem begins_unique (h : act.Begins s id p) (h' : act.Begins s id q) : p = q := by
  cases h with
  | create _ hp =>
    cases h' with
    | create _ hq =>
      rw [hp] at hq
      exact Option.some.inj hq
  | start =>
    cases h' with
    | start => rfl

theorem begins_once {before before' after after' : List (Action σ)} {act' : Action σ}
    (hsplit : before ++ act :: after = before' ++ act' :: after')
    (h : act.Begins (eng.play s before) id p) (h' : act'.Begins (eng.play s before') id q) :
    p = q := by
  -- After the earlier of the two the id is known, and the later one wants it to be new.
  have later {b x : List (Action σ)} {a a' : Action σ} {r r' : Pipe}
      (hb : a.Begins (eng.play s b) id r)
      (hb' : a'.Begins (eng.play s (b ++ a :: x)) id r') : False := by
    apply not_mem_of_begins hb'
    rw [play_append]
    exact mem_ids_play (mem_ids_of_begins hb) x
  rcases List.append_eq_append_iff.mp hsplit with ⟨x, rfl, hx⟩ | ⟨x, rfl, hx⟩
  · cases x with
    | nil =>
      cases hx
      rw [List.append_nil] at h'
      exact begins_unique h h'
    | cons a x =>
      cases hx
      exact (later h h').elim
  · cases x with
    | nil =>
      cases hx
      rw [List.append_nil] at h
      exact begins_unique h h'
    | cons a x =>
      cases hx
      exact (later h' h).elim

end Engine

section

variable (rest work : Run → Prop) (post : Except RunError Ending → Run → Prop)

def Hand.Upheld (x : Hand) : Prop :=
  rest x.attempt.run ∧ match x.stage with
    | .running run _ => work run
    | .ended result run => post result run
    | _ => True

structure System.Upheld (s : System σ) : Prop where
  hands {h : Nat} {x : Hand} : s.hands h = some x → x.Upheld rest work post
  entries {id : String} {e : Entry} : s.parked.get? id = some e → rest e.run

end

variable {eng : Engine σ} {rest work : Run → Prop} {post : Except RunError Ending → Run → Prop}
  {s s' : System σ}

namespace System.Upheld

theorem update (hu : s.Upheld rest work post) {k : Nat} {y : Option Hand}
    (hy : ∀ x, y = some x → x.Upheld rest work post)
    (hh : s'.hands = Function.update s.hands k y)
    (he : ∀ id e, s'.parked.get? id = some e → rest e.run) : s'.Upheld rest work post where
  hands {h x} hx := by
    rw [hh, Function.update_apply] at hx
    split at hx
    · exact hy x hx
    · exact hu.hands hx
  entries := he _ _

theorem same (hu : s.Upheld rest work post) (hh : s'.hands = s.hands)
    (he : ∀ id e, s'.parked.get? id = some e → s.parked.get? id = some e) :
    s'.Upheld rest work post where
  hands hx := hu.hands (hh ▸ hx)
  entries hx := hu.entries (he _ _ hx)

theorem put (hu : s.Upheld rest work post) {k : Nat} {x : Hand} (hx : x.Upheld rest work post)
    (hh : s'.hands = Function.update s.hands k (some x)) (hp : s'.parked = s.parked) :
    s'.Upheld rest work post := by
  refine hu.update (k := k) (y := some x) ?_ hh ?_
  · rintro _ ⟨⟩
    exact hx
  · intro id e he
    rw [hp] at he
    exact hu.entries he

theorem amend (hu : s.Upheld rest work post) (h : Nat) {f : Attempt → Attempt}
    (hf : ∀ a, rest a.run → rest (f a).run) : (s.amend h f).Upheld rest work post := by
  unfold System.amend
  split
  next a hx =>
    obtain ⟨hrest, -⟩ := hu.hands hx
    exact hu.put (x := ⟨f a, .idle⟩) ⟨hf a hrest, trivial⟩ rfl rfl
  · exact hu

theorem begin (hu : s.Upheld rest work post) {id : String} {p : Pipe}
    (hnew : id ∉ s.ids → rest (.start id p)) : (s.begin id p).Upheld rest work post := by
  unfold System.begin
  split
  · exact hu
  next hid => exact hu.put (x := ⟨.create id p, .idle⟩) ⟨hnew hid, trivial⟩ rfl rfl

theorem abandon (hu : s.Upheld rest work post) (a : Attempt) {id : String} {e : Entry}
    (he : (a.abandon s.parked).get? id = some e) : rest e.run := by
  rw [Attempt.get?_abandon] at he
  obtain ⟨e', he', rfl⟩ := Option.map_eq_some_iff.mp he
  have hrest := hu.entries he'
  split <;> exact hrest

theorem file (hu : s.Upheld rest work post)
    (hsuspended : ∀ x r, post (.ok (.suspended x)) r → rest r) {a : Attempt}
    {result : Except RunError Ending} {run : Run} (ho : post result run) (now : Instant)
    {id : String} {e : Entry}
    (he : (a.file result run now s.parked).get? id = some e) : rest e.run := by
  have hf := a.filed result run now s.parked
  generalize a.file result run now s.parked = parked at hf he
  generalize a.report result run s.parked = events at hf
  cases hf with
  | parked hr held =>
    rw [ParkedRuns.get?_park] at he
    split at he
    · cases he
      exact hsuspended _ _ (hr ▸ ho)
    · exact hu.entries he
  | lost hr hl held => exact hu.entries he
  | finished hr =>
    rw [ParkedRuns.get?_remove] at he
    split at he
    · cases he
    · exact hu.entries he
  | cancelled hr => exact hu.entries he

theorem takeUp (hu : s.Upheld rest work post) {id : String} {a : Attempt} {parked : ParkedRuns}
    (ht : Attempt.takeUp s.parked id = .ok (a, parked)) :
    rest a.run ∧ ∀ other e, parked.get? other = some e → rest e.run := by
  obtain ⟨e₀, he₀, -, rfl, rfl⟩ := System.takeUp_ok ht
  have hrest := hu.entries he₀
  refine ⟨hrest, fun other e he => ?_⟩
  rw [ParkedRuns.get?, Keyed.get?_put] at he
  split at he
  · cases he
    exact hrest
  · exact hu.entries he

end System.Upheld

namespace Engine.Upkeep

theorem begin_restart (hk : eng.Upkeep rest work post) {a : Attempt} (hrest : rest a.run)
    (limit : Nat) (input : List Json) :
    Hand.Upheld rest work post ⟨a, .begin a limit (a.run.restart eng.evaluator input)⟩ := by
  refine ⟨hrest, ?_⟩
  cases hr : a.run.restart eng.evaluator input with
  | error e => exact hk.unready hrest hr
  | ok run => exact hk.restart hrest hr

theorem begin_answer (hk : eng.Upkeep rest work post) {a : Attempt} (hrest : rest a.run)
    (hp : a.run.paused.isSome) (limit : Nat) (answers : List Json) :
    Hand.Upheld rest work post ⟨a, .begin a limit (a.run.answer eng.evaluator answers)⟩ := by
  refine ⟨hrest, ?_⟩
  cases hr : a.run.answer eng.evaluator answers with
  | error e => exact hk.unanswered hrest hp hr
  | ok run => exact hk.answer hrest hp hr

theorem step (hk : eng.Upkeep rest work post) (hs : s.Sound) (hu : s.Upheld rest work post)
    {act : Action σ} (hnew : ∀ id p, act.Begins s id p → rest (.start id p)) :
    (eng.step s act).Upheld rest work post := by
  cases act with
  | create id name =>
    simp only [Engine.step]
    split
    next p hp => exact hu.begin fun hid => hnew id p (.create hid hp)
    · exact hu
  | start id p => exact hu.begin fun hid => hnew id p (.start hid)
  | takeUp id =>
    simp only [Engine.step]
    split
    next a parked ht =>
      obtain ⟨hrest, hentries⟩ := hu.takeUp ht
      refine hu.update (k := s.made) (y := some ⟨a, .idle⟩) ?_ rfl hentries
      rintro _ ⟨⟩
      exact ⟨hrest, trivial⟩
    · exact hu
  | withGlobal h global => exact hu.amend h fun _ hrest => hk.global global hrest
  | withSid h sid => exact hu.amend h fun _ hrest => hk.sid sid hrest
  | withToken h token => exact hu.amend h fun _ hrest => hrest
  | exec h input =>
    simp only [Engine.step]
    split
    next a hx => exact hu.put (hk.begin_restart (hu.hands hx).1 _ input) rfl rfl
    · exact hu
  | resume h answers =>
    simp only [Engine.step]
    split
    next a hx =>
      split
      next hp => exact hu.update (k := h) (y := none) (by simp) rfl fun _ _ => hu.abandon a
      next x hp =>
        have hsome : a.run.paused.isSome := by rw [hp]; rfl
        exact hu.put (hk.begin_answer (hu.hands hx).1 hsome _ answers) rfl rfl
    · exact hu
  | turn h =>
    simp only [Engine.step]
    split
    next a run left hx =>
      obtain ⟨hrest, hwork⟩ := hu.hands hx
      split
      next l ht =>
        have hmore := hk.more hwork ht
        exact hu.put (x := ⟨a, .running l.scene.run l.left⟩) ⟨hrest, hmore⟩ rfl rfl
      next result t ht =>
        have hdone := hk.done hwork ht
        exact hu.put (x := ⟨a, .ended result t.run⟩) ⟨hrest, hdone⟩ rfl rfl
    · exact hu
  | settle h =>
    simp only [Engine.step]
    split
    next a result run hx =>
      obtain ⟨hrest, hover⟩ := hu.hands hx
      refine hu.update (k := h) (y := some ⟨a, .settled⟩) ?_ rfl fun _ _ =>
        hu.file (fun _ _ => hk.suspended) hover _
      rintro _ ⟨⟩
      exact ⟨hrest, trivial⟩
    · exact hu
  | drop h =>
    simp only [Engine.step]
    split
    next x hx =>
      exact hu.update (k := h) (y := none) (by simp) rfl fun _ _ => hu.abandon x.attempt
    · exact hu
  | close id =>
    refine hu.same rfl fun other e he => ?_
    simp only [Engine.step, System.keep_parked, ParkedRuns.get?_remove] at he
    split at he
    · cases he
    · exact he
  | prune maxAge =>
    refine hu.same rfl fun other e he => ?_
    simp only [Engine.step, System.keep_parked, ParkedRuns.get?_prune hs.distinct] at he
    exact (Option.filter_eq_some_iff.mp he).1
  | register p => exact hu.same rfl fun _ _ he => he
  | unregister id => exact hu.same rfl fun _ _ he => he
  | outside w => exact hu.same rfl fun _ _ he => he

/-- If every run begins as runs at rest are, all runs stay as runs at rest and at work are. -/
theorem play (hk : eng.Upkeep rest work post) (hs : s.Sound) (hu : s.Upheld rest work post)
    {acts : List (Action σ)}
    (hnew : ∀ before act after, acts = before ++ act :: after → ∀ id p,
      act.Begins (eng.play s before) id p → rest (.start id p)) :
    (eng.play s acts).Upheld rest work post := by
  induction acts generalizing s with
  | nil => exact hu
  | cons act acts ih =>
    have hfirst := hk.step hs hu (hnew [] act acts rfl)
    refine ih (hs.change (eng.step_change s act)) hfirst fun before act' after hsplit => ?_
    subst hsplit
    exact hnew (act :: before) act' after rfl

end Engine.Upkeep

theorem System.upheld_init (w : σ) : (System.init w).Upheld rest work post where
  hands hx := by cases hx
  entries he := by cases he

def Pipe.IsBuilt (p : Pipe) : Prop := ∃ fresh d, Pipe.build fresh d = .ok p

def Action.pipe? : Action σ → Option Pipe
  | .start _ p => some p
  | .register p => some p
  | _ => none

namespace Engine

variable {eng : Engine σ}

theorem catalog_step {s : System σ} {act : Action σ} {name : String} {q : Pipe}
    (h : Keyed.get? (eng.step s act).catalog name = some q) :
    Keyed.get? s.catalog name = some q ∨ act = .register q := by
  cases act with
  | register p =>
    simp only [step, Catalog.insert, Keyed.get?_put] at h
    split at h
    · cases h
      exact .inr rfl
    · exact .inl h
  | unregister id =>
    simp only [step, Catalog.remove] at h
    by_cases hid : name = id
    · rw [hid, Keyed.get?_erase_self] at h
      cases h
    · rw [Keyed.get?_erase_of_ne _ hid] at h
      exact .inl h
  | create id other =>
    refine .inl ?_
    simp only [step] at h
    split at h
    · rwa [System.begin_catalog] at h
    · exact h
  | start id p => exact .inl (s.begin_catalog id p ▸ h)
  | withGlobal k global => exact .inl (s.amend_catalog k _ ▸ h)
  | withSid k sid => exact .inl (s.amend_catalog k _ ▸ h)
  | withToken k token => exact .inl (s.amend_catalog k _ ▸ h)
  | takeUp | exec | settle | drop =>
    refine .inl ?_
    simp only [step] at h
    split at h <;> exact h
  | resume | turn =>
    refine .inl ?_
    simp only [step] at h
    split at h
    · split at h <;> exact h
    · exact h
  | close | prune | outside => exact .inl h

theorem catalog_play {s : System σ} {acts : List (Action σ)} {name : String} {q : Pipe}
    (h : Keyed.get? (eng.play s acts).catalog name = some q) :
    Keyed.get? s.catalog name = some q ∨ .register q ∈ acts := by
  induction acts generalizing s with
  | nil => exact .inl h
  | cons act acts ih =>
    rcases ih h with hfirst | hlater
    · rcases catalog_step hfirst with hbefore | rfl
      · exact .inl hbefore
      · exact .inr List.mem_cons_self
    · exact .inr (List.mem_cons_of_mem _ hlater)

theorem pipe_of_begins {w : σ} {before : List (Action σ)} {act : Action σ} {id : String} {p : Pipe}
    (h : act.Begins (eng.play (.init w) before) id p) (after : List (Action σ)) :
    ∃ other ∈ before ++ act :: after, other.pipe? = some p := by
  cases h with
  | create _ hp =>
    rcases catalog_play hp with hnone | hregister
    · cases hnone
    · exact ⟨_, List.mem_append_left _ hregister, rfl⟩
  | start => exact ⟨_, List.mem_append_right _ List.mem_cons_self, rfl⟩

def Built (acts : List (Action σ)) : Prop := ∀ act ∈ acts, ∀ q, act.pipe? = some q → q.IsBuilt

theorem Upkeep.built (hk : eng.Upkeep rest work post) (w : σ) {acts : List (Action σ)}
    (hacts : Built acts)
    (hstart : ∀ id p, p.IsBuilt → rest (.start id p)) :
    (eng.play (.init w) acts).Upheld rest work post := by
  refine hk.play (System.sound_init w) (System.upheld_init w) ?_
  intro before act after hsplit id p hbegins
  obtain ⟨other, hmem, hp⟩ := pipe_of_begins hbegins after
  exact hstart id p (hacts other (hsplit ▸ hmem) p hp)

end Engine

end Pipework
