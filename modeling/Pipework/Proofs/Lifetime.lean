import Pipework.Proofs.Passing

/-!
# How a run comes to where it is

A run is begun, amended, started over and answered, and turns carry it on. Whatever all these
operations keep holds of every run that a system holds: parked, in hand, at work or at its end.
-/

namespace Pipework

variable {σ : Type}

namespace Engine

variable (eng : Engine σ)

/-- The states of a run of the pipe. Beside them stands what the first pipe has recorded since the
run was last started over. -/
inductive Reaches (p : Pipe) : Run → List (String × Json) → Prop
  | start (id : String) : Reaches p (.start id p) []
  | global {r : Run} {log : List (String × Json)} (global : Keyed Json) :
      Reaches p r log → Reaches p (r.withGlobal global) log
  | sid {r : Run} {log : List (String × Json)} (sid : String) :
      Reaches p r log → Reaches p (r.withSid sid) log
  | restart {r r' : Run} {log : List (String × Json)} {input : List Json} :
      Reaches p r log → r.restart eng.evaluator input = .ok r' → Reaches p r' []
  | answer {r r' : Run} {log : List (String × Json)} {answers : List Json} :
      Reaches p r log → r.paused.isSome → r.answer eng.evaluator answers = .ok r' →
      Reaches p r' (log ++ r.finishedBy eng.evaluator answers)
  | more {token : Option String} {l l' : Loop σ} {log : List (String × Json)} :
      Reaches p l.scene.run log → l.scene.run.paused = none → eng.turn token l = .more l' →
      Reaches p l'.scene.run (log ++ eng.finished l.scene)
  | done {token : Option String} {l : Loop σ} {result : Except RunError Ending} {t : Scene σ}
      {log : List (String × Json)} :
      Reaches p l.scene.run log → l.scene.run.paused = none → eng.turn token l = .done result t →
      Reaches p t.run log

variable {eng} {p : Pipe} {token : Option String}

theorem paused_of_more {l l' : Loop σ} (h : eng.turn token l = .more l') :
    l'.scene.run.paused = l.scene.run.paused := by
  have hdispatch {n : Node Pipe} {step : Except RunError Step} {s' : Scene σ}
      (hd : eng.dispatch l.scene n = (step, s')) : s'.run.paused = l.scene.run.paused := by
    obtain ⟨m, hm⟩ := eng.dispatch_run l.scene n
    rw [hd] at hm
    simp only at hm
    rw [hm]
  cases eng.moves_of_turn h with
  | advance _ _ hd _ =>
    have hpaused := hdispatch hd
    exact hpaused
  | enter _ _ hd =>
    have hpaused := hdispatch hd
    exact hpaused
  | leave _ _ hr =>
    obtain ⟨f, -, rfl⟩ := Run.closeCase_eq hr
    rfl
  | again _ _ hr =>
    obtain ⟨target, i, -, rfl⟩ := Run.closeRoot_eq hr
    rfl

theorem stack_of_done {l : Loop σ} {result : Except RunError Ending} {t : Scene σ}
    (h : eng.turn token l = .done result t) :
    t.run.stack = l.scene.run.stack ∧
      ((∃ x, result = .ok (.suspended x)) ∨ t.run.paused = l.scene.run.paused) := by
  have hdispatch {n : Node Pipe} {step : Except RunError Step} {s' : Scene σ}
      (hd : eng.dispatch l.scene n = (step, s')) :
      s'.run.stack = l.scene.run.stack ∧ s'.run.paused = l.scene.run.paused := by
    obtain ⟨m, hm⟩ := eng.dispatch_run l.scene n
    rw [hd] at hm
    simp only at hm
    rw [hm]
    exact ⟨rfl, rfl⟩
  cases eng.ends_of_turn h with
  | paused _ _ _ hd => exact ⟨(hdispatch hd).1, .inl ⟨_, rfl⟩⟩
  | failed _ _ _ hd | astray _ _ _ hd _ => exact ⟨(hdispatch hd).1, .inr (hdispatch hd).2⟩
  | cancelled | exhausted | caseFailed | rootFailed | completed => exact ⟨rfl, .inr rfl⟩

theorem Reaches.atRest {r : Run} {log : List (String × Json)} (h : eng.Reaches p r log) :
    r.AtRest p := by
  have unpaused {r' : Run} (hplace : r'.stack.InPlace p) (hp : r'.paused = none) :
      r'.AtRest p := by
    refine ⟨hplace, fun x hx => ?_⟩
    rw [hp] at hx
    cases hx
  induction h with
  | start id => exact Run.atRest_start id p
  | global global _ ih =>
    exact ih.map (g := (·.setGlobal global)) rfl rfl rfl fun f => ⟨rfl, rfl, rfl, rfl⟩
  | sid sid _ ih => exact ih.map (g := (·.setSid sid)) rfl rfl rfl fun f => ⟨rfl, rfl, rfl, rfl⟩
  | restart _ hr ih =>
    have hplace := Run.inPlace_restart ih.stack hr
    obtain ⟨f, -, rfl⟩ := Run.restart_root hr
    exact unpaused hplace rfl
  | answer _ _ hr ih =>
    have hplace := Run.inPlace_answer ih.stack hr
    obtain ⟨_, _, _, _, -, -, -, rfl⟩ := Run.answer_node hr
    exact unpaused hplace rfl
  | more _ hp ht ih => exact unpaused (inPlace_of_turn ih.stack ht) ((paused_of_more ht).trans hp)
  | done _ hp ht ih =>
    obtain ⟨hs, ⟨x, rfl⟩ | hpaused⟩ := stack_of_done ht
    · exact atRest_of_paused ih.stack ht
    · exact unpaused (hs ▸ ih.stack) (hpaused.trans hp)

/-- Runs that go with their ids, and that turns and answers have brought to where they are. -/
theorem upkeep_reaches (eng : Engine σ) (goes : String → Pipe → Prop) :
    let reached : Run → Prop := fun r => ∃ q log, eng.Reaches q r log ∧ goes r.id q
    eng.Upkeep reached (fun r => r.paused = none ∧ reached r) fun _ => reached where
  global global := by
    rintro ⟨q, log, hr, hgoes⟩
    exact ⟨q, log, hr.global global, hgoes⟩
  sid sid := by
    rintro ⟨q, log, hr, hgoes⟩
    exact ⟨q, log, hr.sid sid, hgoes⟩
  restart := by
    rintro r r' input ⟨q, log, hr, hgoes⟩ hrestart
    refine ⟨?_, q, [], hr.restart hrestart, ?_⟩
    · obtain ⟨f, -, rfl⟩ := Run.restart_root hrestart
      rfl
    · rw [(Run.SameRun.of_restart hrestart).id]
      exact hgoes
  unready hr _ := hr
  answer := by
    rintro r r' answers ⟨q, log, hr, hgoes⟩ hp hanswer
    refine ⟨?_, q, _, hr.answer hp hanswer, ?_⟩
    · obtain ⟨_, _, _, _, -, -, -, rfl⟩ := Run.answer_node hanswer
      rfl
    · rw [(Run.SameRun.of_answer hanswer).id]
      exact hgoes
  unanswered hr _ _ := hr
  more := by
    rintro token l l' ⟨hp, q, log, hr, hgoes⟩ ht
    refine ⟨(paused_of_more ht).trans hp, q, _, hr.more hp ht, ?_⟩
    rw [(eng.moves_of_turn ht).sameRun.id]
    exact hgoes
  done := by
    rintro token l result t ⟨hp, q, log, hr, hgoes⟩ ht
    refine ⟨q, log, hr.done hp ht, ?_⟩
    rw [(eng.sameRun_of_done ht).id]
    exact hgoes
  suspended hr := hr

end Engine

inductive System.HasRun (s : System σ) : Run → Prop
  | parked {id : String} {e : Entry} : s.parked.get? id = some e → HasRun s e.run
  | held {h : Nat} {x : Hand} : s.hands h = some x → HasRun s x.attempt.run
  | running {h : Nat} {a : Attempt} {run : Run} {left : Nat} :
      s.hands h = some ⟨a, .running run left⟩ → HasRun s run
  | ended {h : Nat} {a : Attempt} {result : Except RunError Ending} {run : Run} :
      s.hands h = some ⟨a, .ended result run⟩ → HasRun s run

/-- In whatever order the steps of all clients come, a run that has been begun with the pipe is in a
state of a run of that pipe. -/
theorem Engine.reaches_of_begins (eng : Engine σ) (w : σ) {before after : List (Action σ)}
    {act : Action σ} {id : String} {p : Pipe}
    (hbegins : act.Begins (eng.play (.init w) before) id p) {run : Run}
    (h : (eng.play (.init w) (before ++ act :: after)).HasRun run) (hid : run.id = id) :
    ∃ log, eng.Reaches p run log := by
  have hnew : ∀ before' act' after', before ++ act :: after = before' ++ act' :: after' →
      ∀ id' q, act'.Begins (eng.play (.init w) before') id' q →
        ∃ q' log, eng.Reaches q' (.start id' q) log ∧ (id' = id → q' = p) := by
    intro before' act' after' hsplit id' q hbegins'
    refine ⟨q, [], .start id', fun heq => ?_⟩
    subst heq
    exact begins_once hsplit.symm hbegins' hbegins
  have hkeeps := eng.upkeep_reaches fun id' q => id' = id → q = p
  have hu := hkeeps.play (System.sound_init w) (System.upheld_init w) hnew
  obtain ⟨q, log, hr, hgoes⟩ : ∃ q log, eng.Reaches q run log ∧ (run.id = id → q = p) := by
    cases h with
    | parked he => exact hu.entries he
    | held hx => exact (hu.hands hx).1
    | running hx => exact (hu.hands hx).2.2
    | ended hx => exact (hu.hands hx).2
  obtain rfl := hgoes hid
  exact ⟨log, hr⟩

end Pipework
