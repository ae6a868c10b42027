import Pipework.Proofs.Signed
import Pipework.Proofs.Withdrawal

/-!
# Clients with runs of their own

Each client has one run and moves on no other, and it counts the attempts that it has had. What it
has of the engine is its view: its attempts, the entry of its run, and what has happened to the run.
The moves of the others are not in it.
-/

namespace Pipework

variable {σ : Type}

def Event.about (id : String) : Event → Bool
  | parked run => run.id == id
  | opened other _ _ => other == id
  | ended other _ _ => other == id
  | closed other => other == id
  | pruned other => other == id

structure View where
  catalog : Catalog
  known : Prop
  entry : Option Entry
  made : Nat
  hands : Nat → Option Hand
  events : List Event

namespace View

variable (v : View)

def put (k : Nat) (x : Option Hand) : View := { v with hands := Function.update v.hands k x }

def hold (a : Attempt) : View := { v.put v.made (some ⟨a, .idle⟩) with made := v.made + 1 }

def file (entry : Option Entry) : View := { v with entry := entry }

def keep (events : List Event) : View := { v with events := v.events ++ events }

def know : View := { v with known := True }

end View

/-- An engine and its clients. A client goes by the id of its run; its seats are the numbers of the
hands that it has had. -/
structure Meeting (σ : Type) where
  system : System (σ × Signed)
  seats : String → List Nat

namespace Meeting

def gather (s : System σ) : Meeting σ where
  system := ⟨s.catalog, s.parked, s.made, s.hands, s.ids, (s.world, []), s.log⟩
  seats id := (List.range s.made).filter fun h => (s.hands h).any (·.attempt.run.id == id)

variable (m : Meeting σ) (id : String)

/-- No hand has the number that is given to an attempt the client has not had. -/
def seat (k : Nat) : Nat := (m.seats id)[k]?.getD m.system.made

def view : View where
  catalog := m.system.catalog
  known := id ∈ m.system.ids
  entry := m.system.parked.get? id
  made := (m.seats id).length
  hands k := (m.seats id)[k]?.bind m.system.hands
  events := m.system.log.filter (·.about id)

def calls : List Call := m.system.world.2.of id

def become (s : System (σ × Signed)) : Meeting σ :=
  ⟨s, if s.made = m.system.made then m.seats
    else Function.update m.seats id (m.seats id ++ [m.system.made])⟩

def put (h : Nat) (x : Option Hand) : Meeting σ := ⟨m.system.put h x, m.seats⟩

def hold (a : Attempt) : Meeting σ :=
  ⟨m.system.hold a, Function.update m.seats id (m.seats id ++ [m.system.made])⟩

def file (parked : ParkedRuns) : Meeting σ := ⟨{ m.system with parked := parked }, m.seats⟩

def keep (events : List Event) : Meeting σ := ⟨m.system.keep events, m.seats⟩

def know : Meeting σ := ⟨{ m.system with ids := id :: m.system.ids }, m.seats⟩

def pass (w : σ × Signed) : Meeting σ := ⟨{ m.system with world := w }, m.seats⟩

section

variable {m : Meeting σ} {id : String} (s : System (σ × Signed))

@[simp] theorem become_system : m.become id m.system = m := by simp [become]

theorem become_of_made {s s' : System (σ × Signed)} (h : s'.made = s.made) :
    m.become id s' = ⟨s', (m.become id s).seats⟩ := by
  simp only [become, h]

@[simp] theorem become_put (h : Nat) (x : Option Hand) :
    m.become id (s.put h x) = (m.become id s).put h x :=
  become_of_made rfl

@[simp] theorem become_keep (events : List Event) :
    m.become id (s.keep events) = (m.become id s).keep events :=
  become_of_made rfl

@[simp] theorem become_file (parked : ParkedRuns) :
    m.become id { s with parked := parked } = (m.become id s).file parked :=
  become_of_made rfl

@[simp] theorem become_pass (w : σ × Signed) :
    m.become id { s with world := w } = (m.become id s).pass w :=
  become_of_made rfl

@[simp] theorem become_hold {s : System (σ × Signed)} (hs : s.made = m.system.made) (a : Attempt) :
    m.become id (s.hold a) = (m.become id s).hold id a := by
  simp [become, hold, System.hold, hs]

@[simp] theorem become_know :
    m.become id { m.system with ids := id :: m.system.ids } = m.know id := by
  simp [become, know]

end

end Meeting

inductive Move (σ : Type) where
  | create (pipe : String)
  | start (pipe : Pipe)
  | takeUp
  | withGlobal (k : Nat) (global : Keyed Json)
  | withSid (k : Nat) (sid : String)
  | withToken (k : Nat) (token : String)
  | exec (k : Nat) (input : List Json)
  | resume (k : Nat) (answers : List Json)
  | turn (k : Nat)
  | settle (k : Nat)
  | drop (k : Nat)
  | close
  /-- What the client does to the world, such as cancelling a token. -/
  | outside (f : σ → σ)

def Move.action (m : Meeting σ) (id : String) : Move σ → Action (σ × Signed)
  | create pipe => .create id pipe
  | start pipe => .start id pipe
  | takeUp => .takeUp id
  | withGlobal k global => .withGlobal (m.seat id k) global
  | withSid k sid => .withSid (m.seat id k) sid
  | withToken k token => .withToken (m.seat id k) token
  | exec k input => .exec (m.seat id k) input
  | resume k answers => .resume (m.seat id k) answers
  | turn k => .turn (m.seat id k)
  | settle k => .settle (m.seat id k)
  | drop k => .drop (m.seat id k)
  | close => .close id
  | outside f => .outside (f m.system.world.1, m.system.world.2)

namespace Engine

variable (eng : Engine σ)

def perform (m : Meeting σ) (step : String × Move σ) : Meeting σ :=
  m.become step.1 ((eng.signed step.1).step m.system (step.2.action m step.1))

def meet (m : Meeting σ) (steps : List (String × Move σ)) : Meeting σ :=
  steps.foldl eng.perform m

end Engine

def alone (id : String) (steps : List (String × Move σ)) : List (String × Move σ) :=
  steps.filter (·.1 == id)

namespace Meeting

structure Placed (m : Meeting σ) : Prop where
  unmade {h : Nat} : m.system.made ≤ h → m.system.hands h = none
  nodup (id : String) : (m.seats id).Nodup
  made {id : String} {h : Nat} : h ∈ m.seats id → h < m.system.made
  own {id : String} {h : Nat} {x : Hand} : h ∈ m.seats id → m.system.hands h = some x →
    x.attempt.run.id = id

variable {m m' : Meeting σ} {id other : String}

theorem placed_gather {s : System σ} (hs : s.Sound) : (gather s).Placed where
  unmade := hs.unmade
  nodup _ := List.nodup_range.filter _
  made h := List.mem_range.mp (List.mem_filter.mp h).1
  own {id h x} hh hx := by
    have hown := (List.mem_filter.mp hh).2
    rw [show s.hands h = some x from hx] at hown
    simpa using hown

theorem Placed.hands_seat (hm : m.Placed) (id : String) (k : Nat) :
    m.system.hands (m.seat id k) = (m.view id).hands k := by
  simp only [seat, view]
  cases (m.seats id)[k]? with
  | none => exact hm.unmade (Nat.le_refl _)
  | some h => rfl

theorem mem_seats {k : Nat} {x : Hand} (hx : (m.view id).hands k = some x) :
    (m.seats id)[k]? = some (m.seat id k) ∧ m.system.hands (m.seat id k) = some x := by
  obtain ⟨h, hh, hx⟩ := Option.bind_eq_some_iff.mp hx
  simp only [seat, hh, Option.getD_some]
  exact ⟨trivial, hx⟩

theorem Placed.run_id (hm : m.Placed) {k : Nat} {x : Hand} (hx : (m.view id).hands k = some x) :
    x.attempt.run.id = id := by
  obtain ⟨hk, hx⟩ := mem_seats hx
  exact hm.own (List.mem_of_getElem? hk) hx

theorem Placed.work_id (hm : m.Placed) (hs : m.system.Sound) {k : Nat} {a : Attempt} {run : Run}
    {left : Nat} (hx : (m.view id).hands k = some ⟨a, .running run left⟩) : run.id = id := by
  have hrun : run.id = a.run.id := hs.live (mem_seats hx).2 (by simp)
  exact hrun.trans (hm.run_id hx)

theorem bind_update_of_ne {seat : Option Nat} {n : Nat} (h : seat ≠ some n)
    (hands : Nat → Option Hand) (x : Option Hand) :
    seat.bind (Function.update hands n x) = seat.bind hands := by
  cases seat with
  | none => rfl
  | some k => exact Function.update_of_ne (fun hk => h (congrArg some hk)) ..

theorem Placed.view_put (hm : m.Placed) {k : Nat} {x : Hand}
    (hx : (m.view id).hands k = some x) (y : Option Hand) :
    (m.put (m.seat id k) y).view id = (m.view id).put k y := by
  obtain ⟨hk, -⟩ := mem_seats hx
  have hhands : ((m.put (m.seat id k) y).view id).hands = ((m.view id).put k y).hands := by
    funext j
    show (m.seats id)[j]?.bind (Function.update m.system.hands (m.seat id k) y) =
      Function.update (m.view id).hands k y j
    by_cases hj : j = k
    · subst hj
      rw [hk, Option.bind_some, Function.update_self, Function.update_self]
    · have hne : (m.seats id)[j]? ≠ some (m.seat id k) := by
        intro hs
        obtain ⟨hlt, -⟩ := List.getElem?_eq_some_iff.mp hk
        exact hj ((List.getElem?_inj hlt (hm.nodup id)).mp (hk.trans hs.symm)).symm
      rw [bind_update_of_ne hne, Function.update_of_ne hj]
      rfl
  exact congrArg (fun hands => { m.view id with hands := hands }) hhands

theorem Placed.view_hold (hm : m.Placed) (a : Attempt) :
    (m.hold id a).view id = (m.view id).hold a := by
  have hhands : ((m.hold id a).view id).hands = ((m.view id).hold a).hands := by
    funext j
    show (Function.update m.seats id (m.seats id ++ [m.system.made]) id)[j]?.bind
        (Function.update m.system.hands m.system.made (some ⟨a, .idle⟩)) =
      Function.update (m.view id).hands (m.seats id).length (some ⟨a, .idle⟩) j
    rw [Function.update_self]
    obtain hj | rfl | hj := Nat.lt_trichotomy j (m.seats id).length
    · have hne : (m.seats id)[j]? ≠ some m.system.made :=
        fun hs => Nat.lt_irrefl _ (hm.made (List.mem_of_getElem? hs))
      rw [List.getElem?_append_left hj, bind_update_of_ne hne,
        Function.update_of_ne (Nat.ne_of_lt hj)]
      rfl
    · rw [List.getElem?_concat_length, Option.bind_some, Function.update_self,
        Function.update_self]
    · have hnew : (m.seats id ++ [m.system.made])[j]? = none := by
        rw [List.getElem?_eq_none_iff, List.length_append]
        exact hj
      have hold : (m.seats id)[j]? = none := List.getElem?_eq_none (Nat.le_of_lt hj)
      rw [Function.update_of_ne (Nat.ne_of_gt hj), hnew]
      exact (congrArg (·.bind m.system.hands) hold).symm
  have hmade : ((m.hold id a).view id).made = (m.view id).made + 1 := by simp [view, hold]
  exact congrArg₂ (fun hands made => { m.view id with hands := hands, made := made }) hhands hmade

@[simp] theorem view_file (parked : ParkedRuns) :
    (m.file parked).view id = (m.view id).file (parked.get? id) := rfl

@[simp] theorem view_keep (events : List Event) :
    (m.keep events).view id = (m.view id).keep (events.filter (·.about id)) := by
  simp [view, keep, View.keep, System.keep]

@[simp] theorem view_know : (m.know id).view id = (m.view id).know := by
  simp [view, know, View.know]

theorem mem_seats_hold {a : Attempt} {k : Nat} (hk : k ∈ (m.hold id a).seats other) :
    k ∈ m.seats other ∨ other = id ∧ k = m.system.made := by
  simp only [hold, Function.update_apply] at hk
  split at hk
  next heq =>
    subst heq
    obtain hk | hk := List.mem_append.mp hk
    · exact .inl hk
    · exact .inr ⟨rfl, List.mem_singleton.mp hk⟩
  next => exact .inl hk

structure Deed (id : String) (m m' : Meeting σ) : Prop where
  placed : m'.Placed
  others {other : String} : other ≠ id → m'.view other = m.view other

namespace Deed

theorem refl (hm : m.Placed) (id : String) : Deed id m m := ⟨hm, fun _ => rfl⟩

theorem put (h : Deed id m m') {n : Nat} {x : Hand} (hx : m'.system.hands n = some x)
    (hid : x.attempt.run.id = id) {y : Option Hand}
    (hy : ∀ z, y = some z → z.attempt.run.id = id) : Deed id m (m'.put n y) where
  placed := {
    unmade := by
      intro k hk
      have hne : k ≠ n := by
        rintro rfl
        rw [h.placed.unmade hk] at hx
        cases hx
      simpa [Meeting.put, hne] using h.placed.unmade hk
    nodup := h.placed.nodup
    made := h.placed.made
    own := by
      intro other k z hk hz
      simp only [Meeting.put, System.put_hands, Function.update_apply] at hz
      split at hz
      next heq =>
        subst heq
        exact (hy z hz).trans (hid.symm.trans (h.placed.own hk hx))
      next => exact h.placed.own hk hz }
  others {other} hne := by
    rw [← h.others hne]
    have hhands : ((m'.put n y).view other).hands = (m'.view other).hands := by
      funext k
      exact bind_update_of_ne (fun hk =>
        hne ((h.placed.own (List.mem_of_getElem? hk) hx).symm.trans hid)) ..
    exact congrArg (fun hands => { m'.view other with hands := hands }) hhands

theorem hold (h : Deed id m m') {a : Attempt} (ha : a.run.id = id) : Deed id m (m'.hold id a) where
  placed := {
    unmade := by
      intro k hk
      have hle : m'.system.made + 1 ≤ k := hk
      simpa [Meeting.hold, Nat.ne_of_gt hle] using h.placed.unmade (Nat.le_of_succ_le hle)
    nodup := by
      intro other
      simp only [Meeting.hold, Function.update_apply]
      split
      · have hnew : m'.system.made ∉ m'.seats id :=
          fun hmem => Nat.lt_irrefl _ (h.placed.made hmem)
        simpa [List.nodup_append, h.placed.nodup id] using fun k hk => ne_of_mem_of_not_mem hk hnew
      · exact h.placed.nodup other
    made := by
      intro other k hk
      obtain hk | ⟨-, rfl⟩ := mem_seats_hold hk
      · exact Nat.lt_succ_of_lt (h.placed.made hk)
      · exact Nat.lt_succ_self _
    own := by
      intro other k z hk hz
      obtain hmem | ⟨rfl, rfl⟩ := mem_seats_hold hk
      · obtain ⟨rfl, -⟩ | hz := System.hands_hold hz
        · exact absurd (h.placed.made hmem) (Nat.lt_irrefl _)
        · exact h.placed.own hmem hz
      · obtain ⟨-, rfl⟩ | hz := System.hands_hold hz
        · exact ha
        · rw [h.placed.unmade (Nat.le_refl _)] at hz
          cases hz }
  others {other} hne := by
    rw [← h.others hne]
    have hhands : ((m'.hold id a).view other).hands = (m'.view other).hands := by
      funext k
      simp only [view, Meeting.hold, System.hold_hands, Function.update_of_ne hne]
      exact bind_update_of_ne
        (fun hk => Nat.lt_irrefl _ (h.placed.made (List.mem_of_getElem? hk))) ..
    have hmade : ((m'.hold id a).view other).made = (m'.view other).made := by
      simp [view, Meeting.hold, hne]
    exact congrArg₂ (fun hands made => { m'.view other with hands := hands, made := made }) hhands
      hmade

theorem file (h : Deed id m m') {parked : ParkedRuns}
    (hp : ∀ other, other ≠ id → parked.get? other = m'.system.parked.get? other) :
    Deed id m (m'.file parked) where
  placed := { h.placed with }
  others {other} hne := by
    rw [← h.others hne, view_file, hp other hne]
    rfl

theorem keep (h : Deed id m m') {events : List Event}
    (he : ∀ e ∈ events, ∀ other, other ≠ id → e.about other = false) :
    Deed id m (m'.keep events) where
  placed := { h.placed with }
  others {other} hne := by
    have hnone : events.filter (·.about other) = [] := by
      simpa using fun e hmem => he e hmem other hne
    rw [← h.others hne, view_keep, hnone, View.keep, List.append_nil]

theorem pass (h : Deed id m m') (w : σ × Signed) : Deed id m (m'.pass w) where
  placed := { h.placed with }
  others hne := h.others hne

theorem know (h : Deed id m m') : Deed id m (m'.know id) where
  placed := { h.placed with }
  others {other} hne := by
    rw [← h.others hne]
    simp [view, Meeting.know, hne]

end Deed

end Meeting

theorem Attempt.Filed.about {a : Attempt} {result : Except RunError Ending} {run : Run}
    {now : Instant} {s s' : ParkedRuns} {events : List Event}
    (h : a.Filed result run now s s' events) (hid : run.id = a.run.id) {other : String}
    (hne : other ≠ a.run.id) : ∀ e ∈ events, e.about other = false := by
  have hended : (Event.ended a.run.id a.lease result).about other = false :=
    beq_false_of_ne hne.symm
  have hparked : (Event.parked run).about other = false := beq_false_of_ne (hid ▸ hne.symm)
  cases h with
  | parked => simp [hended, hparked]
  | lost | finished | cancelled => simp [hended]

namespace Engine

open Meeting

variable (eng : Engine σ) {m : Meeting σ}

theorem deed_perform (hm : m.Placed) (hs : m.system.Sound) (id : String) (move : Move σ) :
    Deed id m (eng.perform m (id, move)) := by
  have hsame := Deed.refl hm id
  have hput {k : Nat} {x y : Hand} (hx : (m.view id).hands k = some x)
      (hy : y.attempt.run.id = x.attempt.run.id) : Deed id m (m.put (m.seat id k) (some y)) := by
    refine hsame.put (mem_seats hx).2 (hm.run_id hx) ?_
    rintro z hz
    cases hz
    exact hy.trans (hm.run_id hx)
  have hamend (k : Nat) {f : Attempt → Attempt} (hf : ∀ a, (f a).run.id = a.run.id) :
      Deed id m (m.become id (m.system.amend (m.seat id k) f)) := by
    unfold System.amend
    split
    next a hx =>
      rw [hm.hands_seat] at hx
      simpa using hput hx (hf a)
    · simpa using hsame
  have hbegin (pipe : Pipe) : Deed id m (m.become id (m.system.begin id pipe)) := by
    unfold System.begin
    split
    · simpa using hsame
    · simp only [become_hold, become_know]
      exact hsame.know.hold rfl
  have habandon {k : Nat} {x : Hand} (hx : (m.view id).hands k = some x) :
      Deed id m ((m.file (x.attempt.abandon m.system.parked)).put (m.seat id k) none) := by
    have hid := hm.run_id hx
    have hfile := hsame.file fun other hne =>
      x.attempt.get?_abandon_of_ne m.system.parked (hid ▸ hne)
    exact hfile.put (mem_seats hx).2 hid (by rintro _ ⟨⟩)
  cases move with
  | create pipe =>
    simp only [perform, Move.action, step]
    split
    · exact hbegin _
    · simpa using hsame
  | start pipe => exact hbegin pipe
  | takeUp =>
    simp only [perform, Move.action, step]
    split
    next a parked ht =>
      obtain ⟨e, he, -, rfl, rfl⟩ := System.takeUp_ok ht
      obtain ⟨hid, -⟩ := hs.entry he
      simp only [become_keep, become_hold, become_file, become_system]
      refine ((hsame.file fun other hne => ?_).hold hid).keep ?_
      · simp only [ParkedRuns.get?, Keyed.get?_put, if_neg hne]
      · simpa [Event.about] using fun other => Ne.symm
    · simpa using hsame
  | withGlobal k global => exact hamend k fun _ => rfl
  | withSid k sid => exact hamend k fun _ => rfl
  | withToken k token => exact hamend k fun _ => rfl
  | exec k input =>
    simp only [perform, Move.action, step, hm.hands_seat]
    split
    next a hx =>
      simp only [become_put, become_system]
      exact hput hx rfl
    · simpa using hsame
  | resume k answers =>
    simp only [perform, Move.action, step, hm.hands_seat]
    split
    next a hx =>
      split
      · simp only [become_keep, become_put, become_file, become_system]
        refine (habandon hx).keep ?_
        have hid : a.run.id = id := hm.run_id hx
        simpa [Event.about, hid] using fun other => Ne.symm
      · simp only [become_put, become_system]
        exact hput hx rfl
    · simpa using hsame
  | turn k =>
    simp only [perform, Move.action, step, hm.hands_seat]
    split
    next a run left hx =>
      have hid : a.run.id = id := hm.run_id hx
      have hpass (w : σ × Signed) (stage : Stage) :
          Deed id m ((m.pass w).put (m.seat id k) (some ⟨a, stage⟩)) := by
        refine (hsame.pass w).put (mem_seats hx).2 hid ?_
        rintro _ ⟨⟩
        exact hid
      split
      all_goals
        simp only [become_put, become_pass, become_system]
        exact hpass _ _
    · simpa using hsame
  | settle k =>
    simp only [perform, Move.action, step, hm.hands_seat]
    split
    next a result run hx =>
      have hid := hm.run_id hx
      obtain ⟨hrun, -⟩ := hs.live (mem_seats hx).2 (by simp)
      have hfile := hsame.file fun other hne => a.get?_file_of_ne result hrun
        ((eng.signed id).services.now m.system.world) m.system.parked (hid ▸ hne)
      simp only [become_keep, become_put, become_file, become_system]
      refine (hfile.put (mem_seats hx).2 hid ?_).keep fun e he other hne => ?_
      · rintro _ ⟨⟩
        exact hid
      · exact (a.filed result run default m.system.parked).about hrun (hid ▸ hne) e he
    · simpa using hsame
  | drop k =>
    simp only [perform, Move.action, step, hm.hands_seat]
    split
    next x hx => simpa using habandon hx
    · simpa using hsame
  | close =>
    simp only [perform, Move.action, step, become_keep, become_file, become_system]
    refine (hsame.file fun other hne => ?_).keep ?_
    · rw [ParkedRuns.get?_remove, if_neg hne]
    · simpa [Event.about] using fun other => Ne.symm
  | outside f => simpa [perform, Move.action, step] using hsame.pass _

end Engine

end Pipework
