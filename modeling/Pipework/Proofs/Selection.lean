import Mathlib.Data.List.Basic
import Pipework.Proofs.Trace
import Pipework.Template.Sole

/-!
# Which case of a switch is taken

Defaults are passed over, wherever they stand, and so are the cases whose test is false. The first
case that is left decides, by its test or by the error of its test. Only if none is left, a default
is taken, and then the first. Nothing is tested but the cases up to the one that decides.
-/

namespace Pipework

def Case.isDefault {π : Type} (c : Case π) : Bool := c.expression = defaultCase

def Case.tests {π : Type} (cases : List (Case π)) : List String :=
  (cases.filter (!·.isDefault)).map (·.expression)

def selectCaseM {m : Type → Type} [Monad m] (test : String → m Bool) :
    Option (Case Pipe) → List (Case Pipe) → m (Option (Case Pipe))
  | fallback, [] => pure fallback
  | fallback, c :: cs =>
    if c.isDefault then selectCaseM test (fallback.or (some c)) cs
    else do
      if ← test c.expression then pure (some c) else selectCaseM test fallback cs

theorem selectCaseM_except (ev : Evaluator) (data : Json) (fallback : Option (Case Pipe))
    (cases : List (Case Pipe)) :
    selectCaseM (fun x => ev.test x data) fallback cases = selectCase ev data fallback cases := by
  induction cases generalizing fallback with
  | nil => rfl
  | cons c cs ih =>
    simp only [selectCaseM, selectCase, Case.isDefault, decide_eq_true_eq, ih]
    split
    · rfl
    · cases ev.test c.expression data with
      | error e => rfl
      | ok b => cases b <;> rfl

namespace Evaluator

variable (ev : Evaluator) (data : Json)

def noted (x : String) : ExceptT NodeError (StateM (List String)) Bool :=
  ExceptT.mk fun notes => (ev.test x data, notes ++ [x])

def select (fallback : Option (Case Pipe)) (cases : List (Case Pipe)) (notes : List String) :
    Except NodeError (Option (Case Pipe)) × List String :=
  (selectCaseM (ev.noted data) fallback cases).run.run notes

def tested (cases : List (Case Pipe)) : List String := (ev.select data none cases []).2

def PassesOver (c : Case Pipe) : Prop :=
  c.isDefault = true ∨ ev.test c.expression data = .ok false

instance (c : Case Pipe) : Decidable (ev.PassesOver data c) := inferInstanceAs (Decidable (_ ∨ _))

/-- What comes of some cases, and what is tested for it. -/
inductive Decides : List (Case Pipe) → Except NodeError (Option (Case Pipe)) → List String → Prop
  | taken {before after : List (Case Pipe)} {c : Case Pipe} :
      (∀ b ∈ before, ev.PassesOver data b) →
      c.isDefault = false → ev.test c.expression data = .ok true →
      Decides (before ++ c :: after) (.ok (some c)) (Case.tests before ++ [c.expression])
  | failed {before after : List (Case Pipe)} {c : Case Pipe} {e : NodeError} :
      (∀ b ∈ before, ev.PassesOver data b) →
      c.isDefault = false → ev.test c.expression data = .error e →
      Decides (before ++ c :: after) (.error e) (Case.tests before ++ [c.expression])
  | untaken {cases : List (Case Pipe)} :
      (∀ c ∈ cases, ev.PassesOver data c) →
      Decides cases (.ok (cases.find? Case.isDefault)) (Case.tests cases)

variable {ev data} {c : Case Pipe} {fallback : Option (Case Pipe)}
  {cases cases' : List (Case Pipe)} {notes : List String}

theorem select_default (hc : c.isDefault = true) :
    ev.select data fallback (c :: cases) notes =
      ev.select data (fallback.or (some c)) cases notes := by
  simp only [select, selectCaseM, hc, if_true]

theorem select_tested (hc : c.isDefault = false) :
    ev.select data fallback (c :: cases) notes = match ev.test c.expression data with
      | .error e => (.error e, notes ++ [c.expression])
      | .ok true => (.ok (some c), notes ++ [c.expression])
      | .ok false => ev.select data fallback cases (notes ++ [c.expression]) := by
  have hbind : ev.select data fallback (c :: cases) notes =
      (ExceptT.bindCont (fun b : Bool =>
          if b then pure (some c) else selectCaseM (ev.noted data) fallback cases)
        (ev.test c.expression data)).run (notes ++ [c.expression]) := by
    simp only [select, selectCaseM, hc, Bool.false_eq_true, if_false]
    rfl
  rw [hbind]
  cases ev.test c.expression data with
  | error e => rfl
  | ok b => cases b <;> rfl

theorem select_append {before : List (Case Pipe)}
    (h : ∀ b ∈ before, ev.PassesOver data b) :
    ev.select data fallback (before ++ cases) notes =
      ev.select data (fallback.or (before.find? Case.isDefault)) cases
        (notes ++ Case.tests before) := by
  induction before generalizing fallback notes with
  | nil => simp [Case.tests]
  | cons b before ih =>
    obtain ⟨hb, hbefore⟩ := List.forall_mem_cons.mp h
    cases hdefault : b.isDefault with
    | true =>
      rw [List.cons_append, select_default hdefault, ih hbefore]
      cases fallback <;> simp [Case.tests, hdefault]
    | false =>
      have hfalse := hb.resolve_left (by simp [hdefault])
      rw [List.cons_append, select_tested hdefault, hfalse]
      simp only [ih hbefore]
      simp [Case.tests, hdefault]

theorem select_eq_of_decides {result : Except NodeError (Option (Case Pipe))}
    {tested : List String} (h : ev.Decides data cases result tested) :
    ev.select data none cases [] = (result, tested) := by
  cases h with
  | taken hbefore hc htest | failed hbefore hc htest =>
    rw [select_append hbefore, select_tested hc, htest]
    rfl
  | untaken hall =>
    have happend : ev.select data none (cases ++ []) [] =
        ev.select data (cases.find? Case.isDefault) [] (Case.tests cases) := select_append hall
    rw [List.append_nil] at happend
    rw [happend]
    rfl

theorem Decides.default_untested {result : Except NodeError (Option (Case Pipe))}
    {tested : List String} (h : ev.Decides data cases result tested) : defaultCase ∉ tested := by
  have htests (cases : List (Case Pipe)) : defaultCase ∉ Case.tests cases := by
    simp [Case.tests, Case.isDefault]
  cases h with
  | @taken before _ c _ hc _ | @failed before _ c _ _ hc _ =>
    have hne : c.expression ≠ defaultCase := by simpa [Case.isDefault] using hc
    simpa [htests before] using hne.symm
  | untaken _ => exact htests cases

theorem exists_decides (ev : Evaluator) (data : Json) (cases : List (Case Pipe)) :
    ∃ result tested, ev.Decides data cases result tested := by
  cases hfirst : cases.find? (¬ ev.PassesOver data ·) with
  | none =>
    have hall := List.find?_eq_none.mp hfirst
    exact ⟨_, _, .untaken fun c hc => by simpa using hall c hc⟩
  | some c =>
    obtain ⟨hc, before, after, rfl, hbefore⟩ := List.find?_eq_some_iff_append.mp hfirst
    have hpassed : ∀ b ∈ before, ev.PassesOver data b := by simpa using hbefore
    obtain ⟨hdefault, htest⟩ := not_or.mp (of_decide_eq_true hc)
    have hdefault : c.isDefault = false := by simpa using hdefault
    match hresult : ev.test c.expression data with
    | .error e => exact ⟨_, _, .failed hpassed hdefault hresult⟩
    | .ok true => exact ⟨_, _, .taken hpassed hdefault hresult⟩
    | .ok false => exact absurd hresult htest

variable (fallback cases notes) in
theorem select_fst :
    (ev.select data fallback cases notes).1 = selectCase ev data fallback cases := by
  induction cases generalizing fallback notes with
  | nil => rfl
  | cons c cases ih =>
    cases hc : c.isDefault with
    | true =>
      rw [select_default hc, ih, selectCase, if_pos (by simpa [Case.isDefault] using hc)]
    | false =>
      rw [select_tested hc, selectCase, if_neg (by simpa [Case.isDefault] using hc)]
      match ev.test c.expression data with
      | .error e => rfl
      | .ok true => rfl
      | .ok false => exact ih _ _

theorem decides_iff {result : Except NodeError (Option (Case Pipe))} {tested : List String} :
    ev.Decides data cases result tested ↔
      selectCase ev data none cases = result ∧ ev.tested data cases = tested := by
  rw [← select_fst none cases [], Evaluator.tested]
  constructor
  · intro h
    rw [select_eq_of_decides h]
    exact ⟨rfl, rfl⟩
  · rintro ⟨rfl, rfl⟩
    obtain ⟨_, _, hdecides⟩ := exists_decides ev data cases
    rwa [select_eq_of_decides hdecides]

variable (fallback cases notes) in
theorem select_filter :
    ev.select data fallback cases notes =
      ev.select data (fallback.or (cases.find? Case.isDefault)) (cases.filter (!·.isDefault))
        notes := by
  induction cases generalizing fallback notes with
  | nil => simp
  | cons c cases ih =>
    cases hc : c.isDefault with
    | true =>
      rw [select_default hc, ih]
      cases fallback <;> simp [hc]
    | false =>
      rw [select_tested hc, List.find?_cons_of_neg (by simp [hc]),
        List.filter_cons_of_pos (by simp [hc]), select_tested hc]
      match ev.test c.expression data with
      | .error e => rfl
      | .ok true => rfl
      | .ok false => exact ih _ _

variable (ev data cases) in
theorem select_fallback (fallback fallback' : Option (Case Pipe)) :
    (ev.select data fallback cases []).2 = (ev.select data fallback' cases []).2 ∧
      (ev.select data fallback cases [] = ev.select data fallback' cases [] ∨
        ∀ c ∈ cases, ev.PassesOver data c) := by
  obtain ⟨_, _, hdecides⟩ := exists_decides ev data cases
  cases hdecides with
  | taken hbefore hc htest | failed hbefore hc htest =>
    rw [select_append hbefore, select_append hbefore, select_tested hc, select_tested hc, htest]
    exact ⟨rfl, .inl rfl⟩
  | untaken hall =>
    have happend (fallback : Option (Case Pipe)) :
        (ev.select data fallback cases []).2 = Case.tests cases := by
      rw [← List.append_nil cases, select_append hall, List.append_nil]
      rfl
    exact ⟨by rw [happend, happend], .inr hall⟩

variable (ev data) in
/-- Cases that differ only in their defaults are told apart only where all tests are false, and then
only by the first default. -/
theorem select_moved (h : cases'.filter (!·.isDefault) = cases.filter (!·.isDefault)) :
    ev.tested data cases' = ev.tested data cases ∧
      (cases'.find? Case.isDefault = cases.find? Case.isDefault →
        selectCase ev data none cases' = selectCase ev data none cases) ∧
      (selectCase ev data none cases' = selectCase ev data none cases ∨
        ∀ c ∈ cases, ev.PassesOver data c) := by
  rw [← select_fst none cases [], ← select_fst none cases' [], tested, tested,
    select_filter none cases, select_filter none cases', h]
  obtain ⟨htested, hresult⟩ := ev.select_fallback data (cases.filter (!·.isDefault))
    (none.or (cases'.find? Case.isDefault)) (none.or (cases.find? Case.isDefault))
  refine ⟨htested, fun hdefault => by rw [hdefault], hresult.imp (congrArg Prod.fst) ?_⟩
  intro hall c hmem
  cases hc : c.isDefault with
  | true => exact .inl hc
  | false => exact hall c (List.mem_filter.mpr ⟨hmem, by simp [hc]⟩)

end Evaluator

namespace Engine

variable {σ : Type}

inductive Switched (eng : Engine σ) (s : Scene σ) (n : Node Pipe) (left : Nat) :
    Except NodeError (Option (Case Pipe)) → Turn σ → Prop
  | entered {c : Case Pipe} {child : Frame} :
      Frame.child eng.evaluator c.pipe s.run.stack.top = .ok child → child.pipe = c.pipe →
      Switched eng s n left (.ok (some c))
        (.more ⟨{ s with run := { s.run with stack := s.run.stack.push child } }, left⟩)
  | unbound {c : Case Pipe} {e : NodeError} :
      Frame.child eng.evaluator c.pipe s.run.stack.top = .error e →
      Switched eng s n left (.ok (some c)) (.done (.error (s.run.nodeError n e)) s)
  | failed {e : NodeError} :
      Switched eng s n left (.error e) (.done (.error (s.run.nodeError n e)) s)
  | untaken :
      Switched eng s n left (.ok none)
        (.done (.error (.switchCaseNotFound s.run.stack.top.pipe.id n.name s.run.id)) s)

theorem switched_runNode (eng : Engine σ) (s : Scene σ) {n : Node Pipe} (left : Nat)
    {cases : List (Case Pipe)} (hn : n.kind = .switch cases) :
    eng.Switched s n left (selectCase eng.evaluator s.run.stack.top.dataValue none cases)
      (eng.runNode s n left) := by
  simp only [runNode, dispatch, hn, dispatchSwitch]
  cases selectCase eng.evaluator s.run.stack.top.dataValue none cases with
  | error e => exact .failed
  | ok taken => cases taken with
    | none => exact .untaken
    | some c =>
      dsimp only
      cases hchild : Frame.child eng.evaluator c.pipe s.run.stack.top with
      | error e => exact .unbound hchild
      | ok child =>
        obtain ⟨_, _, rfl⟩ := Frame.child_eq hchild
        exact .entered hchild rfl

/-- The first case that is no default and whose test is not false decides what is taken: the case
itself if the test is true, and nothing if the test fails. Where there is none, the first default
is taken, if there is one. Each case up to the one that decides is tested once, no other is, and
defaults never are. So it does not matter where defaults stand, and whether there are any matters
only if all tests are false. The turn at the switch enters the pipe of the case that is taken, or
else ends the run with the error. -/
theorem switch_decided (eng : Engine σ) (cases : List (Case Pipe)) :
    (∀ data, selectCaseM (fun x => eng.evaluator.test x data) none cases =
      selectCase eng.evaluator data none cases) ∧
    (∀ data result tested, eng.evaluator.Decides data cases result tested ↔
      selectCase eng.evaluator data none cases = result ∧
        eng.evaluator.tested data cases = tested) ∧
    (∀ data, defaultCase ∉ eng.evaluator.tested data cases) ∧
    (∀ data (cases' : List (Case Pipe)),
      cases'.filter (!·.isDefault) = cases.filter (!·.isDefault) →
        eng.evaluator.tested data cases' = eng.evaluator.tested data cases ∧
        (cases'.find? Case.isDefault = cases.find? Case.isDefault →
          selectCase eng.evaluator data none cases' = selectCase eng.evaluator data none cases) ∧
        (selectCase eng.evaluator data none cases' = selectCase eng.evaluator data none cases ∨
          ∀ c ∈ cases, eng.evaluator.PassesOver data c)) ∧
    ∀ token (s : Scene σ) n left, eng.isCancelled token s.world = false →
      s.run.current? = some n → n.kind = .switch cases →
        eng.Switched s n left (selectCase eng.evaluator s.run.stack.top.dataValue none cases)
          (eng.turn token ⟨s, left + 1⟩) := by
  refine ⟨fun data => selectCaseM_except _ data _ _, fun data _ _ => Evaluator.decides_iff,
    fun data => ?_, fun data cases' hsame => eng.evaluator.select_moved data hsame,
    fun token s n left hc hn hk => ?_⟩
  · exact (Evaluator.decides_iff.mpr ⟨rfl, rfl⟩).default_untested
  · rw [eng.turn_node hc hn]
    exact eng.switched_runNode s left hk

end Engine

def casePipe (id : String) : Pipe :=
  ⟨id, id, [], none, none, none, none, none, some "main", some "main"⟩

def mixedCases : List (Case Pipe) :=
  [⟨"default", casePipe "fallback"⟩, ⟨"input", casePipe "full"⟩, ⟨"input", casePipe "again"⟩,
    ⟨"true", casePipe "always"⟩, ⟨"1 +", casePipe "malformed"⟩]

def routingEngine : Engine Nat := ⟨.templates, countingServices, ⟨10, 0, 0⟩⟩

def routingNode : Node Pipe := ⟨"route", "", 0, .switch mixedCases, none, none⟩

def routingScene : Scene Nat :=
  ⟨.start "r" ⟨"main", "main", [routingNode], none, none, none, none, none, none, none⟩, 0⟩

theorem switch_decided_mixedCases :
    selectCase .templates routingScene.run.stack.top.dataValue none mixedCases.tail =
        .ok (some ⟨"true", casePipe "always"⟩) ∧
      Evaluator.templates.tested routingScene.run.stack.top.dataValue mixedCases =
        ["input", "input", "true"] ∧
      ∃ child, child.pipe = casePipe "always" ∧
        routingEngine.turn none ⟨routingScene, 10⟩ = .more ⟨{ routingScene with
          run := { routingScene.run with stack := routingScene.run.stack.push child } }, 9⟩ := by
  obtain ⟨-, hdecides, -, hmoved, hturn⟩ := routingEngine.switch_decided mixedCases
  have htaken := @Evaluator.Decides.taken .templates routingScene.run.stack.top.dataValue
    (mixedCases.take 3) [⟨"1 +", casePipe "malformed"⟩] ⟨"true", casePipe "always"⟩
    (by decide +kernel) (by decide +kernel) (by decide +kernel)
  obtain ⟨hselect, htested⟩ := (hdecides _ _ _).mp htaken
  obtain ⟨-, -, hsame⟩ := hmoved routingScene.run.stack.top.dataValue mixedCases.tail (by rfl)
  refine ⟨(hsame.resolve_right ?_).trans hselect, htested, ?_⟩
  · intro hall
    have hfalse := (hall ⟨"true", casePipe "always"⟩ (by simp [mixedCases])).resolve_left
      (by decide +kernel)
    exact absurd hfalse (by decide +kernel)
  · have hswitched := hturn none routingScene routingNode 9 rfl rfl rfl
    rw [hselect] at hswitched
    generalize routingEngine.turn none ⟨routingScene, 10⟩ = t at hswitched ⊢
    cases hswitched with
    | entered _ hpipe => exact ⟨_, hpipe, rfl⟩
    | unbound hchild => cases hchild

end Pipework
