import Pipework.Proofs.Answering
import Pipework.Proofs.Interlude
import Pipework.Proofs.Recursion

/-!
# A run that is parked and taken up again goes on as if it had never been parked

A relay starts a run, and after each pause takes it up from the store with the next answer. In
between, clients may do all that spares the run. The relay comes to what one loop comes to in which
every pause is answered at once: the same result, the same calls and the same prompts remembered.
-/

namespace Pipework

variable {σ : Type}

structure Leg (σ : Type) where
  result : Except RunError Ending
  run : Run
  calls : List Call
  system : System σ

namespace Leg

def scene (l : Leg σ) : Scene (σ × List Call) := ⟨l.run, l.system.world, l.calls⟩

def of (eng : Engine σ) (a : Attempt) (s : System σ)
    (r : Except RunError Ending × Scene (σ × List Call)) : Leg σ where
  result := r.1
  run := r.2.run
  calls := r.2.world.2
  system := { s with
    parked := a.settle r.1 r.2.run (eng.services.now r.2.world.1) s.parked
    world := r.2.world.1 }

end Leg

namespace Engine

variable (eng : Engine σ)

def firstLeg (s : System σ) (h : Nat) (a : Attempt) (input : List Json) : Leg σ :=
  .of eng a (s.put h none)
    (eng.traced.driveFrom a (a.run.restart eng.evaluator input) (s.world, []))

def nextLeg (l : Leg σ) (interlude : List (Action σ)) (answers : List Json) : Leg σ :=
  let s := eng.play l.system interlude
  match Attempt.takeUp s.parked l.run.id with
  | .error e => { l with result := .error e, system := s }
  | .ok (a, parked) => match a.run.paused with
    | none => { l with
        result := .error (.notSuspended a.run.id)
        system := { s with parked := a.abandon parked } }
    | some _ => .of eng a { s with parked := parked }
        (eng.traced.driveFrom a (a.run.answer eng.evaluator answers) (s.world, l.calls))

/-- Goes on from pause to pause, as long as the run pauses and the script has answers. -/
def relay : Leg σ → List (List (Action σ) × List Json) → Leg σ
  | l, [] => l
  | l, (interlude, answers) :: script => match l.result with
    | .ok (.suspended _) => relay (eng.nextLeg l interlude answers) script
    | _ => l

/-- Between the calls of a relay clients spare its run, and they have let go of all other attempts
on it before it is taken up. -/
def Undisturbed : Leg σ → List (List (Action σ) × List Json) → Prop
  | _, [] => True
  | l, (interlude, answers) :: script => ∀ snapshot, l.result = .ok (.suspended snapshot) →
      eng.Spares l.run.id l.system interlude ∧
      (∀ h x, (eng.play l.system interlude).hands h = some x → x.attempt.run.id ≠ l.run.id) ∧
      Undisturbed (eng.nextLeg l interlude answers) script

theorem firstLeg_eq_exec (s : System σ) (h : Nat) (a : Attempt) (input : List Json) :
    ((eng.firstLeg s h a input).result, (eng.firstLeg s h a input).system.parked,
      (eng.firstLeg s h a input).system.world, (eng.firstLeg s h a input).calls) =
      eng.traced.exec a input s.parked (s.world, []) :=
  rfl

theorem nextLeg_eq_resumeParked (l : Leg σ) (interlude : List (Action σ)) (answers : List Json) :
    ((eng.nextLeg l interlude answers).result, (eng.nextLeg l interlude answers).system.parked,
      (eng.nextLeg l interlude answers).system.world, (eng.nextLeg l interlude answers).calls) =
      eng.traced.resumeParked l.run.id answers (eng.play l.system interlude).parked
        ((eng.play l.system interlude).world, l.calls) := by
  simp only [nextLeg, resumeParked]
  cases Attempt.takeUp (eng.play l.system interlude).parked l.run.id with
  | error e => rfl
  | ok r =>
    obtain ⟨a, parked⟩ := r
    dsimp only
    unfold resume
    cases a.run.paused with
    | none => rfl
    | some snapshot => rfl

end Engine

theorem Attempt.file_of_pause (a : Attempt) {s : ParkedRuns} {run : Run}
    (held : ∀ lease, a.lease = some lease → s.heldBy run.id lease = true) (snapshot : Snapshot)
    (now : Instant) : a.file (.ok (.suspended snapshot)) run now s = s.park run none now := by
  rw [file]
  cases hl : a.lease with
  | none => rfl
  | some lease => exact s.park_of_held (held lease hl) now

theorem Attempt.get?_settle (a : Attempt) {s : ParkedRuns} {run : Run}
    (held : ∀ lease, a.lease = some lease → s.heldBy run.id lease = true) (snapshot : Snapshot)
    (now : Instant) :
    (a.settle (.ok (.suspended snapshot)) run now s).get? run.id = some ⟨run, none, now⟩ := by
  rw [settle, a.file_of_pause held, get?_abandon, ParkedRuns.get?_park_self]
  simp

theorem System.Sound.takeUp {s : System σ} (hs : s.Sound) {id : String} {e : Entry}
    (he : s.parked.get? id = some e)
    (hfree : ∀ h x, s.hands h = some x → x.attempt.run.id ≠ id) :
    ∃ lease parked, Attempt.takeUp s.parked id = .ok (⟨e.run, some lease, none⟩, parked) ∧
      parked.heldBy id lease = true := by
  have hlease : e.lease = none := by
    cases hl : e.lease with
    | none => rfl
    | some lease =>
      obtain ⟨h, x, hx, hid, -⟩ := hs.holder he hl
      exact absurd hid (hfree h x hx)
  have hcheckout := s.parked.checkout_of_free he hlease
  refine ⟨s.parked.leases + 1, ⟨Keyed.put s.parked.entries id
    { e with lease := some (s.parked.leases + 1) }, s.parked.leases + 1⟩, ?_, ?_⟩
  · simp only [Attempt.takeUp, hcheckout]
  · exact (ParkedRuns.heldBy_iff _).mpr ⟨_, Keyed.get?_put_self .., rfl⟩

structure Leg.Waiting (l : Leg σ) : Prop where
  sound : l.system.Sound
  entry : ∃ e, l.system.parked.get? l.run.id = some e ∧ e.run = l.run

namespace Engine

variable {eng : Engine σ}

theorem waiting_of_call {s t : System σ} (hs : s.Sound) {h : Nat} {a : Attempt}
    (hx : s.hands h = some ⟨a, .idle⟩)
    (held : ∀ lease, a.lease = some lease → s.parked.heldBy a.run.id lease = true)
    (hu : ∀ {k}, t.made ≤ k → t.hands k = none) (hh : t.hands = Function.update s.hands h none)
    (hi : t.ids = s.ids) (hp : t.parked = s.parked) {ready : Except RunError Run}
    (hready : ∀ r, ready = .ok r → a.run.SameRun r) (w : σ × List Call) {snapshot : Snapshot}
    (hr : (Leg.of eng a t (eng.traced.driveFrom a ready w)).result = .ok (.suspended snapshot)) :
    (Leg.of eng a t (eng.traced.driveFrom a ready w)).Waiting := by
  have hid := (eng.traced.sameRun_driveFrom a ready hready w).id
  rcases hd : eng.traced.driveFrom a ready w with ⟨result, r⟩
  rw [hd] at hr hid
  obtain rfl : result = .ok (.suspended snapshot) := hr
  have hpaused : r.run.paused = some snapshot := eng.traced.paused_of_driveFrom hd
  have hlive : Hand.Live ⟨a, .ended (.ok (.suspended snapshot)) r.run⟩ :=
    ⟨hid, fun _ _ => by rw [hpaused]; rfl⟩
  have hcall := hs.call hx hlive (eng.services.now r.world.1)
  have hparked : (Leg.of eng a t (.ok (.suspended snapshot), r)).system.parked =
      a.settle (.ok (.suspended snapshot)) r.run (eng.services.now r.world.1) s.parked := by
    simp only [Leg.of, hp]
  have hentry := a.get?_settle (fun lease hl => by rw [hid]; exact held lease hl) snapshot
    (eng.services.now r.world.1)
  exact ⟨hcall.of_same hu hh hi hparked, ⟨r.run, none, _⟩, hparked ▸ hentry, rfl⟩

theorem waiting_firstLeg {s : System σ} (hs : s.Sound) {h : Nat} {a : Attempt}
    (hx : s.hands h = some ⟨a, .idle⟩) (hl : a.lease = none) {input : List Json}
    {snapshot : Snapshot} (hr : (eng.firstLeg s h a input).result = .ok (.suspended snapshot)) :
    (eng.firstLeg s h a input).Waiting := by
  refine waiting_of_call (t := s.put h none) hs hx ?_ ?_ rfl rfl rfl
    (fun r hr => Run.SameRun.of_restart hr) _ hr
  · simp [hl]
  · intro k hk
    have hnone := hs.unmade hk
    rw [System.put_hands, Function.update_apply]
    split
    · rfl
    · exact hnone

theorem nextLeg_of_waiting {l : Leg σ} (hw : l.Waiting) {interlude : List (Action σ)}
    (hspares : eng.Spares l.run.id l.system interlude)
    (hfree : ∀ h x, (eng.play l.system interlude).hands h = some x →
      x.attempt.run.id ≠ l.run.id) (answers : List Json) :
    eng.services.Alike l.run.id l.system.world (eng.play l.system interlude).world ∧
      (∃ a t, a.run = l.run ∧ a.token = none ∧ eng.nextLeg l interlude answers =
        .of eng a t (eng.traced.driveFrom a (l.run.answer eng.evaluator answers)
          ((eng.play l.system interlude).world, l.calls))) ∧
      ∀ snapshot, (eng.nextLeg l interlude answers).result = .ok (.suspended snapshot) →
        (eng.nextLeg l interlude answers).Waiting := by
  obtain ⟨e₀, he₀, hrun₀⟩ := hw.entry
  obtain ⟨hs, halike, e, he, hrun⟩ := spares_play hw.sound hspares he₀
  have hpaused := (hs.entry he).2.1
  obtain ⟨lease, parked, htake, hheld⟩ := hs.takeUp he hfree
  rw [hrun, hrun₀] at hpaused htake
  obtain ⟨snapshot₀, hsnapshot₀⟩ := Option.isSome_iff_exists.mp hpaused
  have hnext : eng.nextLeg l interlude answers =
      .of eng ⟨l.run, some lease, none⟩ { eng.play l.system interlude with parked := parked }
        (eng.traced.driveFrom ⟨l.run, some lease, none⟩ (l.run.answer eng.evaluator answers)
          ((eng.play l.system interlude).world, l.calls)) := by
    simp only [nextLeg, htake, hsnapshot₀]
  refine ⟨halike, ⟨_, _, rfl, rfl, hnext⟩, fun snapshot hr => ?_⟩
  rw [hnext] at hr ⊢
  -- The call has the next free hand, and leaves it empty again.
  have hmade := hs.unmade (Nat.le_refl _)
  refine waiting_of_call (t := { eng.play l.system interlude with parked := parked })
    (hs.opened htake) (Function.update_self ..) ?_ hs.unmade ?_ rfl rfl
    (fun r hr => Run.SameRun.of_answer hr) _ hr
  · rintro _ ⟨⟩
    exact hheld
  · rw [System.hold_hands, Function.update_idem]
    exact (Function.update_eq_self_iff.mpr hmade.symm).symm

def SameCalls (eng : Engine σ) (id : String) (w v : σ × List Call) : Prop :=
  eng.services.Alike id w.1 v.1 ∧ w.2 = v.2

theorem sameCalls_agree (eng : Engine σ) (id : String) :
    eng.traced.Agree eng.traced id undated (eng.SameCalls id) :=
  ⟨(eng.services.alike_agree id).traced, rfl, rfl⟩

/-- A call comes to what the loop comes to that answers at once, up to its first pause. -/
theorem carries_of_call {a : Attempt} (hc : ∀ w, eng.isCancelled a.token w = false)
    {ready : Except RunError Run} (hready : ∀ r, ready = .ok r → a.run.SameRun r)
    {w : σ × List Call} {t : Scene (σ × List Call)}
    (ht : Scene.Alike (eng.SameCalls a.run.id) ⟨a.run, w⟩ t) {k : Nat}
    (hk : eng.settings.maxSteps ≤ k) {l : Leg σ} {s : System σ}
    (hl : l = .of eng a s (eng.traced.driveFrom a ready w))
    (hlimit : ∀ id n, l.result ≠ .error (.stepLimitExceeded id n)) (answers : List (List Json)) :
    l.run.id = a.run.id ∧
      eng.traced.Carries undated (eng.SameCalls a.run.id) none answers eng.settings.maxSteps k
        (l.result, l.scene) (eng.traced.carryFrom none answers ready t k) := by
  subst hl
  have hcancel (v v' : σ × List Call) :
      eng.traced.isCancelled none v' = eng.traced.isCancelled a.token v := by
    rw [traced_isCancelled, traced_isCancelled, hc]
    rfl
  have hid := (eng.traced.sameRun_driveFrom a ready hready w).id
  exact ⟨hid, eng.traced.carryFrom_agree a (sameCalls_agree eng a.run.id) (fun _ _ _ => hcancel _ _)
    (fun r hr => (hready r hr).id) ht hk hlimit answers⟩

theorem relay_of_over {l : Leg σ} (h : ∀ snapshot, l.result ≠ .ok (.suspended snapshot))
    (script : List (List (Action σ) × List Json)) : eng.relay l script = l := by
  cases script with
  | nil => rfl
  | cons leg script =>
    rw [relay]
    split
    next snapshot hr => exact absurd hr (h snapshot)
    next => rfl

theorem relay_agree {l : Leg σ} {script : List (List (Action σ) × List Json)}
    {u : Except RunError Ending × Scene (σ × List Call)} {left : Nat}
    (hcarries : eng.traced.Carries undated (eng.SameCalls l.run.id) none (script.map Prod.snd)
      eng.settings.maxSteps left (l.result, l.scene) u)
    (hw : ∀ snapshot, l.result = .ok (.suspended snapshot) → l.Waiting)
    (hund : eng.Undisturbed l script)
    (hlimit : ∀ id k, (eng.relay l script).result ≠ .error (.stepLimitExceeded id k))
    (hle : (script.length + 1) * eng.settings.maxSteps ≤ left) :
    SameEnd undated (eng.SameCalls l.run.id)
      ((eng.relay l script).result, (eng.relay l script).scene) u := by
  -- What is left of the limit covers all calls that the script may still lead to.
  induction script generalizing l u left with
  | nil => exact hcarries.sameEnd (.inl rfl)
  | cons leg script ih =>
    obtain ⟨interlude, answers⟩ := leg
    by_cases hpause : ∃ snapshot, l.result = .ok (.suspended snapshot)
    · obtain ⟨snapshot, hr⟩ := hpause
      obtain ⟨hspares, hfree, hund'⟩ := hund snapshot hr
      obtain ⟨halike, ⟨a, s, ha, hnone, hnext⟩, hw'⟩ :=
        nextLeg_of_waiting (hw snapshot hr) hspares hfree answers
      simp only [relay, hr] at hlimit ⊢
      simp only [Carries, hr, List.map_cons] at hcarries
      obtain ⟨t, k, ht, hk, rfl⟩ := hcarries
      have hlength : (script.length + 1) * eng.settings.maxSteps ≤ k := by
        rw [List.length_cons, Nat.succ_mul] at hle
        omega
      have hmax : eng.settings.maxSteps ≤ k :=
        Nat.le_trans (Nat.le_mul_of_pos_left _ (Nat.succ_pos _)) hlength
      -- The loop answers the run itself, the relay the copy that was parked.
      have hanswer : t.run.answer eng.evaluator answers = l.run.answer eng.evaluator answers := by
        obtain ⟨p, hp⟩ := ht.run
        rw [hp]
        rfl
      have hscene : Scene.Alike (eng.SameCalls a.run.id)
          ⟨a.run, (eng.play l.system interlude).world, l.calls⟩ t := by
        rw [ha]
        exact ⟨ht.run, halike.symm.trans ht.world.1, ht.world.2⟩
      have hready (r : Run) (hr : l.run.answer eng.evaluator answers = .ok r) :
          a.run.SameRun r := by
        rw [ha]
        exact Run.SameRun.of_answer hr
      have hnolimit (id : String) (n : Nat) :
          (eng.nextLeg l interlude answers).result ≠ .error (.stepLimitExceeded id n) := by
        intro hx
        apply hlimit id n
        rw [relay_of_over (by simp [hx]), hx]
      obtain ⟨hid, hcarries⟩ := carries_of_call (fun w => by rw [hnone]; rfl) hready hscene hmax
        hnext hnolimit (script.map Prod.snd)
      rw [ha] at hid
      rw [ha, ← hanswer] at hcarries
      rw [← hid] at hcarries ⊢
      exact ih hcarries hw' hund' hlimit hlength
    · have hne : ∀ snapshot, l.result ≠ .ok (.suspended snapshot) :=
        fun snapshot hr => hpause ⟨snapshot, hr⟩
      rw [relay_of_over hne]
      exact hcarries.sameEnd (.inr hne)

def atOnce (eng : Engine σ) (a : Attempt) (input : List Json) (answers : List (List Json))
    (w : σ) (steps : Nat) : Except RunError Ending × Scene (σ × List Call) :=
  eng.traced.carryFrom none answers (a.run.restart eng.evaluator input) ⟨a.run, w, []⟩ steps

/-- Parking a run and taking it up again shows nowhere but in the dates of its pauses: whatever
clients have done before, a relay that is not disturbed comes to the same result, has made the same
calls and remembers the same prompts as the loop that answers every pause at once. -/
theorem relay_eq_atOnce (eng : Engine σ) (w : σ) (acts : List (Action σ)) {h : Nat} {a : Attempt}
    (hx : (eng.play (.init w) acts).hands h = some ⟨a, .idle⟩) (hl : a.lease = none)
    (hc : ∀ v, eng.isCancelled a.token v = false) (input : List Json)
    (script : List (List (Action σ) × List Json))
    (hund : eng.Undisturbed (eng.firstLeg (eng.play (.init w) acts) h a input) script)
    (hlimit : ∀ id n, (eng.relay (eng.firstLeg (eng.play (.init w) acts) h a input) script).result ≠
      .error (.stepLimitExceeded id n))
    {steps : Nat} (hsteps : (script.length + 1) * eng.settings.maxSteps ≤ steps) :
    let l := eng.relay (eng.firstLeg (eng.play (.init w) acts) h a input) script
    let u := eng.atOnce a input (script.map Prod.snd) (eng.play (.init w) acts).world steps
    l.result.map (Ending.redate undated) = u.1.map (Ending.redate undated) ∧
      l.calls = u.2.world.2 ∧ l.run.memory = u.2.run.memory := by
  have hs := System.sound_play eng w acts
  generalize eng.play (.init w) acts = s at hx hund hlimit hs ⊢
  have hmax : eng.settings.maxSteps ≤ steps :=
    Nat.le_trans (Nat.le_mul_of_pos_left _ (Nat.succ_pos _)) hsteps
  have hsame : Scene.Alike (eng.SameCalls a.run.id) ⟨a.run, s.world, []⟩ ⟨a.run, s.world, []⟩ :=
    ⟨⟨_, rfl⟩, .refl .., rfl⟩
  have hnolimit (id : String) (n : Nat) :
      (eng.firstLeg s h a input).result ≠ .error (.stepLimitExceeded id n) := by
    intro hx
    apply hlimit id n
    rw [relay_of_over (by simp [hx]), hx]
  obtain ⟨hid, hcarries⟩ := carries_of_call hc (fun r hr => Run.SameRun.of_restart hr) hsame hmax
    rfl hnolimit (script.map Prod.snd)
  rw [← hid] at hcarries
  obtain ⟨hresult, hscene⟩ := relay_agree hcarries
    (fun snapshot hr => waiting_firstLeg hs hx hl hr) hund hlimit hsteps
  exact ⟨hresult, hscene.world.2, hscene.memory.symm⟩

end Engine

theorem countingServices_alike (run : String) (w v : Nat) : countingServices.Alike run w v := by
  have hagree : countingServices.Agree countingServices run undated fun _ _ => True := {
    process := fun _ _ _ _ _ => ⟨rfl, trivial⟩
    request := fun _ _ _ _ => ⟨rfl, trivial⟩
    chat := fun _ _ _ _ => ⟨rfl, trivial⟩
    render := fun _ _ => ⟨rfl, trivial⟩
    notify := fun _ _ _ => trivial
    now := fun _ => rfl }
  exact ⟨_, hagree, trivial⟩

def askingCase : Pipe :=
  ⟨"main:pick", "",
    [⟨"ask", "", 0, .userInput .web none, none, none⟩,
      ⟨"note", "", 1, .process "note" (.str "asked"), none, none⟩],
    none, none, none, none, none, none, some "main"⟩

def askingPipe : Pipe :=
  ⟨"main", "",
    [⟨"pick", "", 0, .switch [⟨"true", askingCase⟩], none, none⟩,
      ⟨"tell", "", 1, .process "tell" .null, none, none⟩],
    none, none, none, none, none, none, none⟩

def skippingCase : Pipe :=
  ⟨"main:pick", "", [⟨"look", "", 0, .process "look" (.str "here"), none, none⟩], none, some "ask",
    none, none, none, none, some "main"⟩

def skippingPipe : Pipe :=
  ⟨"main", "",
    [⟨"pick", "", 0, .switch [⟨"true", skippingCase⟩], none, none⟩,
      ⟨"skipped", "", 1, .process "skipped" .null, none, none⟩,
      ⟨"ask", "", 2, .userInput .web none, none, none⟩],
    none, none, none, none, none, none, none⟩

def askingLeg : Leg Nat :=
  countingEngine.firstLeg (countingEngine.play (.init 0) [.start "r" askingPipe]) 0
    (.create "r" askingPipe) []

def askingScript : List (List (Action Nat) × List Json) :=
  [([.takeUp "r", .drop 1, .register askingPipe, .start "q" skippingPipe, .exec 2 [], .turn 2,
    .outside 7], [.str "yes"])]

theorem undisturbed_askingScript : countingEngine.Undisturbed askingLeg askingScript := by
  intro snapshot hr
  refine ⟨⟨trivial, trivial, trivial, trivial, trivial, ?_, ?_, trivial⟩, ?_, trivial⟩
  · intro a run left hx
    cases hx
    exact countingServices_alike ..
  · exact countingServices_alike ..
  · intro h x hx
    match h with
    | 0 => cases hx
    | 1 => cases hx
    | 2 =>
      cases hx
      decide
    | h + 3 => cases hx

theorem relay_askingScript :
    countingEngine.Undisturbed askingLeg askingScript ∧
      (countingEngine.atOnce (.create "r" askingPipe) [] [[.str "yes"]] 0 20).2.world.2 =
        [.process "note" (.str "asked") ⟨"main:pick", "r", "note", "", []⟩,
          .process "tell" .null ⟨"main", "r", "tell", "", []⟩] := by
  have hok : (countingEngine.relay askingLeg askingScript).result.isOk = true := by
    decide +kernel
  have hlimit (id : String) (n : Nat) : (countingEngine.relay askingLeg askingScript).result ≠
      .error (.stepLimitExceeded id n) := by
    intro hx
    rw [hx] at hok
    cases hok
  have hcalls : (countingEngine.relay askingLeg askingScript).calls =
      [.process "note" (.str "asked") ⟨"main:pick", "r", "note", "", []⟩,
        .process "tell" .null ⟨"main", "r", "tell", "", []⟩] := by
    decide +kernel
  obtain ⟨-, hsame, -⟩ := countingEngine.relay_eq_atOnce 0 [.start "r" askingPipe] (h := 0) rfl rfl
    (fun _ => rfl) [] askingScript undisturbed_askingScript
    hlimit (Nat.le_refl 20)
  exact ⟨undisturbed_askingScript, hsame.symm.trans hcalls⟩

end Pipework
