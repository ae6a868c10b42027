import Pipework.Proofs.Trace

/-!
# How long a call takes

Only running a node counts against the limit of a call. The turns that do not count are those that
end a case and those that jump within the first pipe. A case has to be entered before it ends,
unless the call has begun inside it, and after a jump the first pipe stands at a node. So three
turns for each node that may be run are enough, beside one for each case in which the call has
begun.
-/

namespace Pipework

variable {σ : Type}

namespace Engine

variable (eng : Engine σ) {token : Option String}

inductive Course (token : Option String) :
    Loop σ → List (Loop σ) → Except RunError Ending × Scene σ → Prop
  | done {l : Loop σ} {result : Except RunError Ending} {s : Scene σ} :
      eng.turn token l = .done result s → Course token l [l] (result, s)
  | more {l l' : Loop σ} {heads : List (Loop σ)} {out : Except RunError Ending × Scene σ} :
      eng.turn token l = .more l' → Course token l' heads out → Course token l (l :: heads) out

def wantsNode (token : Option String) (l : Loop σ) : Bool :=
  !eng.isCancelled token l.scene.world && l.scene.run.current?.isSome

def runsNode (token : Option String) (l : Loop σ) : Bool :=
  eng.wantsNode token l && l.left != 0

end Engine

def Loop.mayJump (l : Loop σ) : Bool :=
  !l.scene.run.stack.below.isEmpty || l.scene.run.stack.top.isFinished

def Loop.budget (l : Loop σ) : Nat :=
  3 * l.left + l.scene.run.stack.below.length + l.mayJump.toNat

theorem Loop.budget_le (l : Loop σ) :
    l.budget ≤ 3 * l.left + l.scene.run.stack.below.length + 1 := by
  have hjump := Bool.toNat_le l.mayJump
  unfold budget
  omega

theorem Run.answer_ne_stepLimit {ev : Evaluator} {r : Run} {answers : List Json} (id : String)
    (limit : Nat) : r.answer ev answers ≠ .error (.stepLimitExceeded id limit) := by
  intro hr
  cases hn : r.stack.top.current? with
  | none => simp [answer, hn] at hr
  | some n =>
    obtain ⟨_, he⟩ | ⟨_, he⟩ | ⟨_, -, he⟩ := answer_error hn hr
    · cases he
    · cases he
    · cases he

namespace Engine

variable {eng : Engine σ} {l l' : Loop σ}

theorem wantsNode_eq_true :
    eng.wantsNode token l = true ↔
      eng.isCancelled token l.scene.world = false ∧ ∃ n, l.scene.run.current? = some n := by
  simp [wantsNode, Option.isSome_iff_exists]

theorem runsNode_eq_true :
    eng.runsNode token l = true ↔ eng.wantsNode token l = true ∧ l.left ≠ 0 := by
  simp [runsNode]

theorem runsNode_of_current {n : Node Pipe} (hc : eng.isCancelled token l.scene.world = false)
    (hn : l.scene.run.current? = some n) (hleft : l.left ≠ 0) : eng.runsNode token l = true :=
  runsNode_eq_true.mpr ⟨wantsNode_eq_true.mpr ⟨hc, n, hn⟩, hleft⟩

theorem not_cancelled_of_more (h : eng.turn token l = .more l') :
    eng.isCancelled token l.scene.world = false := by
  obtain ⟨s, left⟩ := l
  cases hc : eng.isCancelled token s.world with
  | false => rfl
  | true =>
    rw [eng.turn_cancelled hc] at h
    cases h

theorem left_of_more (h : eng.turn token l = .more l') :
    l.left = l'.left + (eng.wantsNode token l).toNat ∧
      eng.runsNode token l = eng.wantsNode token l := by
  have hc := not_cancelled_of_more h
  have hruns : l.left = l'.left + 1 → eng.runsNode token l = eng.wantsNode token l := by
    intro hl
    simp [runsNode, hl]
  obtain ⟨s, left⟩ := l
  cases eng.moves_of_turn h with
  | advance hn hl _ _ | enter hn hl _ =>
    have hwants : eng.wantsNode token ⟨s, left⟩ = true := wantsNode_eq_true.mpr ⟨hc, _, hn⟩
    exact ⟨by rw [hwants]; exact hl, hruns hl⟩
  | leave hn _ _ | again hn _ _ =>
    have hwants : eng.wantsNode token ⟨s, left⟩ = false := by
      simp only [wantsNode, Run.current?, hn, Option.isSome_none, Bool.and_false]
    exact ⟨by rw [hwants]; rfl, by simp [runsNode, hwants]⟩

theorem budget_lt_of_more (h : eng.turn token l = .more l') : l'.budget < l.budget := by
  obtain ⟨s, left⟩ := l
  cases eng.moves_of_turn h with
  | advance hn hl hd _ =>
    obtain ⟨hs, -⟩ := eng.sameRun_of_dispatch s _ hd
    simp only at hl
    subst hl
    refine Nat.lt_of_le_of_lt (Loop.budget_le _) ?_
    simp only [Loop.budget, Run.withTop, hs]
    omega
  | enter hn hl hd =>
    obtain ⟨hs, -⟩ := eng.sameRun_of_dispatch s _ hd
    simp only at hl
    subst hl
    refine Nat.lt_of_le_of_lt (Loop.budget_le _) ?_
    simp only [Loop.budget, Stack.push, hs, List.length_cons]
    omega
  | leave hn hb hr =>
    obtain ⟨f, -, rfl⟩ := Run.closeCase_eq hr
    dsimp only at hb
    have hjump : Loop.mayJump ⟨s, left⟩ = true := by simp [Loop.mayJump, hb]
    refine Nat.lt_of_le_of_lt (Loop.budget_le _) ?_
    simp only [Loop.budget, hjump, hb, List.length_cons, Bool.toNat_true]
    omega
  | again hn hb hr =>
    obtain ⟨target, i, hi, rfl⟩ := Run.closeRoot_eq hr
    dsimp only at hn hb hi
    -- A jump leads to a node of the pipe, so the next turn is no jump.
    have hat := Frame.isFinished_of_jump hi
    have hend : s.run.stack.top.isFinished = true := by rw [Frame.isFinished_eq, hn]; rfl
    simp [Loop.budget, Loop.mayJump, Run.withTop, hb, hat, hend]

theorem stepLimit_of_done {result : Except RunError Ending} {t : Scene σ}
    (h : eng.turn token l = .done result t) :
    (∃ id limit, result = .error (.stepLimitExceeded id limit)) ↔
      eng.wantsNode token l = true ∧ l.left = 0 := by
  obtain ⟨s, left⟩ := l
  constructor
  · rintro ⟨id, limit, rfl⟩
    cases eng.ends_of_turn h with
    | exhausted hc hn hl => exact ⟨wantsNode_eq_true.mpr ⟨hc, _, hn⟩, hl⟩
    | failed _ _ _ hd =>
      have hfails := fails_of_dispatch hd
      cases hfails
    | astray _ _ _ _ hr =>
      obtain ⟨target, -, he⟩ := Run.pass_error hr
      cases he
    | caseFailed _ _ _ hr =>
      obtain ⟨x, he⟩ | ⟨target, -, he⟩ := Run.closeCase_error hr
      · cases he
      · cases he
    | rootFailed _ _ _ hr =>
      obtain ⟨x, he⟩ | ⟨target, -, he⟩ := Run.closeRoot_error hr
      · cases he
      · cases he
  · rintro ⟨hwants, hl⟩
    obtain ⟨hc, n, hn⟩ := wantsNode_eq_true.mp hwants
    simp only at hl
    subst hl
    rw [eng.turn_exhausted hc hn] at h
    cases h
    exact ⟨_, _, rfl⟩

namespace Course

variable {heads : List (Loop σ)} {out : Except RunError Ending × Scene σ}

theorem exists_course (eng : Engine σ) (token : Option String) (l : Loop σ) :
    ∃ heads, eng.Course token l heads (eng.runLoop token l) := by
  induction l using eng.loop_induction token with
  | done l result s ht =>
    rw [eng.runLoop_of_done ht]
    exact ⟨[l], .done ht⟩
  | more l l' ht ih =>
    obtain ⟨heads, hcourse⟩ := ih
    rw [eng.runLoop_of_more ht]
    exact ⟨l :: heads, .more ht hcourse⟩

theorem eq_runLoop (h : eng.Course token l heads out) : out = eng.runLoop token l := by
  induction h with
  | done ht => rw [eng.runLoop_of_done ht]
  | more ht _ ih => rw [ih, eng.runLoop_of_more ht]

theorem length_le (h : eng.Course token l heads out) : heads.length ≤ l.budget + 1 := by
  induction h with
  | done _ => simp
  | more ht _ ih =>
    have hbudget := budget_lt_of_more ht
    rw [List.length_cons]
    omega

theorem countP_runsNode_le (h : eng.Course token l heads out) :
    heads.countP (eng.runsNode token) ≤ l.left := by
  induction h with
  | @done l _ _ _ =>
    rw [List.countP_singleton]
    split
    next hruns =>
      have hleft := (runsNode_eq_true.mp hruns).2
      omega
    · omega
  | @more l l' _ _ ht _ ih =>
    obtain ⟨hleft, hruns⟩ := left_of_more ht
    rw [List.countP_cons, hruns]
    cases hw : eng.wantsNode token l with
    | false =>
      rw [hw] at hleft
      simpa [hleft] using ih
    | true =>
      rw [hw] at hleft
      simpa [hleft] using ih

theorem stepLimit_iff (h : eng.Course token l heads out) :
    (∃ id limit, out.1 = .error (.stepLimitExceeded id limit)) ↔
      heads.countP (eng.wantsNode token) = l.left + 1 := by
  induction h with
  | @done l _ _ ht =>
    rw [stepLimit_of_done ht, List.countP_singleton]
    cases hw : eng.wantsNode token l with
    | false => simp
    | true => simp
  | @more l l' _ _ ht _ ih =>
    obtain ⟨hleft, -⟩ := left_of_more ht
    rw [ih, List.countP_cons]
    cases hw : eng.wantsNode token l with
    | false =>
      rw [hw] at hleft
      simp [hleft]
    | true =>
      rw [hw] at hleft
      simp [hleft]

end Course

theorem stepLimit_driveFrom {a : Attempt} {ready : Except RunError Run} {w : σ} {id : String}
    {limit : Nat} (hready : ready ≠ .error (.stepLimitExceeded id limit)) :
    (eng.driveFrom a ready w).1 = .error (.stepLimitExceeded id limit) ↔
      ∃ run, ready = .ok run ∧
        (eng.drive a.token ⟨run, w⟩).1 = .error (.stepLimitExceeded id limit) := by
  cases ready with
  | error e =>
    have hne : (Except.error e : Except RunError Ending) ≠
        .error (.stepLimitExceeded id limit) := by
      rintro ⟨⟩
      exact hready rfl
    simp [driveFrom, hne]
  | ok run => simp [driveFrom]

/-- Every call ends, whatever the run, the limit and the services are. It takes no more turns than
the cases it has begun in and three for each node that it may run and one more, it runs no more
nodes than it may, and it exceeds the limit exactly if it comes to one node more. -/
theorem calls_end (eng : Engine σ) :
    (∀ (token : Option String) (s : Scene σ),
      (∃ heads, eng.Course token ⟨s, eng.settings.maxSteps⟩ heads (eng.drive token s)) ∧
      ∀ heads out, eng.Course token ⟨s, eng.settings.maxSteps⟩ heads out →
        out = eng.drive token s ∧
        heads.length ≤ s.run.stack.below.length + 3 * (eng.settings.maxSteps + 1) ∧
        heads.countP (eng.runsNode token) ≤ eng.settings.maxSteps ∧
        ((∃ id limit, out.1 = .error (.stepLimitExceeded id limit)) ↔
          heads.countP (eng.wantsNode token) = eng.settings.maxSteps + 1)) ∧
    ∀ (a : Attempt) (values : List Json) (parked : ParkedRuns) (w : σ) (id : String) (limit : Nat),
      ((eng.exec a values parked w).1 = .error (.stepLimitExceeded id limit) ↔
        ∃ run, a.run.restart eng.evaluator values = .ok run ∧
          (eng.drive a.token ⟨run, w⟩).1 = .error (.stepLimitExceeded id limit)) ∧
      ((eng.resume a values parked w).1 = .error (.stepLimitExceeded id limit) ↔
        a.run.paused.isSome = true ∧ ∃ run, a.run.answer eng.evaluator values = .ok run ∧
          (eng.drive a.token ⟨run, w⟩).1 = .error (.stepLimitExceeded id limit)) := by
  refine ⟨fun token s => ⟨Course.exists_course eng token _, fun heads out h => ?_⟩,
    fun a values parked w id limit => ⟨?_, ?_⟩⟩
  · have hlength := h.length_le
    have hbudget := Loop.budget_le (⟨s, eng.settings.maxSteps⟩ : Loop σ)
    simp only at hbudget
    exact ⟨h.eq_runLoop, by omega, h.countP_runsNode_le, h.stepLimit_iff⟩
  · refine stepLimit_driveFrom fun hr => ?_
    obtain ⟨x, he⟩ := Run.restart_error hr
    cases he
  · cases hp : a.run.paused with
    | none => simp [resume, hp]
    | some x =>
      have hready : a.run.answer eng.evaluator values ≠ .error (.stepLimitExceeded id limit) :=
        Run.answer_ne_stepLimit id limit
      have hdrive := @stepLimit_driveFrom _ eng a _ w _ _ hready
      simpa [resume, hp, conclude] using hdrive

end Engine

def endlessPipe : Pipe :=
  ⟨"main", "main", [⟨"again", "", 0, .process "tick" .null, none, none⟩], none, some "again", none,
    none, none, none, none⟩

def endlessScene : Scene Nat := ⟨.start "r" endlessPipe, 0⟩

def overLimit : Except RunError Ending → Bool
  | .error (.stepLimitExceeded _ _) => true
  | _ => false

theorem exists_of_overLimit {result : Except RunError Ending} (h : overLimit result = true) :
    ∃ id limit, result = .error (.stepLimitExceeded id limit) := by
  unfold overLimit at h
  split at h
  next id limit => exact ⟨id, limit, rfl⟩
  · cases h

theorem calls_end_endlessScene :
    ∃ heads, countingEngine.Course none ⟨endlessScene, 10⟩ heads
        (countingEngine.drive none endlessScene) ∧
      heads.countP (countingEngine.wantsNode none) = 11 ∧ heads.length ≤ 33 := by
  have hlimit : overLimit (countingEngine.drive none endlessScene).1 = true := by decide +kernel
  obtain ⟨hends, -⟩ := countingEngine.calls_end
  obtain ⟨⟨heads, hcourse⟩, hall⟩ := hends none endlessScene
  obtain ⟨-, hlength, -, hiff⟩ := hall heads _ hcourse
  exact ⟨heads, hcourse, hiff.mp (exists_of_overLimit hlimit), hlength⟩

end Pipework
