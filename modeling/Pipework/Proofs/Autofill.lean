import Mathlib.Data.List.TakeWhile
import Pipework.Proofs.Calls
import Pipework.Proofs.Course
import Pipework.Scripted
import Pipework.Template.Sole

/-!
# Who gets the queued answers

A question that is answered in advance takes no answer from the queue: the lines of its text come
back up to the first that is the sentinel. All other questions take one answer each, so the answers
go to them in the order in which they are asked, whoever asks.
-/

namespace Pipework

namespace Text

/-- The lines of a text. A carriage return before a line feed is dropped, and nothing follows the
last line feed if the text ends in it. -/
inductive Lines : List Char → List String → Prop
  | nil : Lines [] []
  | last {line : List Char} : line ≠ [] → '\n' ∉ line → Lines line [String.ofList line]
  | lf {line rest : List Char} {lines : List String} : '\n' ∉ line →
      line.getLast? ≠ some '\r' → Lines rest lines →
      Lines (line ++ '\n' :: rest) (String.ofList line :: lines)
  | crlf {line rest : List Char} {lines : List String} : '\n' ∉ line → Lines rest lines →
      Lines (line ++ '\r' :: '\n' :: rest) (String.ofList line :: lines)

theorem splitOn_of_not_mem {sep : Char} {cs : List Char} (h : sep ∉ cs) :
    splitOn sep cs = [cs] := by
  induction cs with
  | nil => rfl
  | cons c cs ih =>
    obtain ⟨hc, hcs⟩ := not_or.mp (mt List.mem_cons.mpr h)
    simp only [splitOn, ih hcs, if_neg (Ne.symm hc)]

theorem splitOn_append {sep : Char} {piece : List Char} (h : sep ∉ piece) (rest : List Char) :
    splitOn sep (piece ++ sep :: rest) = piece :: splitOn sep rest := by
  induction piece with
  | nil =>
    obtain ⟨first, pieces, hrest⟩ := List.exists_cons_of_ne_nil (splitOn_ne_nil sep rest)
    simp only [List.nil_append, splitOn, hrest, if_true]
  | cons c piece ih =>
    obtain ⟨hc, hpiece⟩ := not_or.mp (mt List.mem_cons.mpr h)
    simp only [List.cons_append, splitOn, ih hpiece, if_neg (Ne.symm hc)]

theorem lines_append {line : List Char} (h : '\n' ∉ line) (rest : List Char) :
    lines (String.ofList (line ++ '\n' :: rest)) =
      String.ofList (chompReturn line) :: lines (String.ofList rest) := by
  obtain ⟨first, pieces, hrest⟩ := List.exists_cons_of_ne_nil (splitOn_ne_nil '\n' rest)
  simp only [lines, String.toList_ofList, splitOn_append h, hrest, List.dropLast_cons_cons,
    List.map_cons, List.getLast?_cons_cons]
  split <;> rfl

theorem chompReturn_of_ne {line : List Char} (h : line.getLast? ≠ some '\r') :
    chompReturn line = line := by
  unfold chompReturn
  split
  next hlast => exact absurd hlast h
  · rfl

theorem chompReturn_return (line : List Char) : chompReturn (line ++ ['\r']) = line := by
  simp [chompReturn]

theorem lines_of_lines {cs : List Char} {ls : List String} (h : Lines cs ls) :
    lines (String.ofList cs) = ls := by
  induction h with
  | nil => rfl
  | @last line hne hline =>
    obtain ⟨c, line, rfl⟩ := List.exists_cons_of_ne_nil hne
    simp [lines, splitOn_of_not_mem hline]
  | lf hline hlast _ ih => rw [lines_append hline, chompReturn_of_ne hlast, ih]
  | @crlf line rest _ hline _ ih =>
    have hreturn : '\n' ∉ line ++ ['\r'] := by simp [hline]
    have happend := lines_append hreturn rest
    rwa [chompReturn_return, ih, List.append_assoc] at happend

theorem exists_lines (cs : List Char) : ∃ ls, Lines cs ls := by
  induction hlength : cs.length using Nat.strongRecOn generalizing cs with
  | ind length ih =>
    by_cases hmem : '\n' ∈ cs
    · obtain ⟨line, rest, rfl, hline⟩ := List.eq_append_cons_of_mem hmem
      obtain ⟨ls, hls⟩ := ih rest.length (by simp [← hlength]; omega) rest rfl
      by_cases hlast : line.getLast? = some '\r'
      · obtain ⟨line, rfl⟩ := List.getLast?_eq_some_iff.mp hlast
        rw [List.append_assoc]
        exact ⟨_, .crlf (fun h => hline (List.mem_append_left _ h)) hls⟩
      · exact ⟨_, .lf hline hlast hls⟩
    · cases cs with
      | nil => exact ⟨_, .nil⟩
      | cons c cs => exact ⟨_, .last (List.cons_ne_nil c cs) hmem⟩

theorem lines_iff {s : String} {ls : List String} : Lines s.toList ls ↔ lines s = ls := by
  constructor
  · intro h
    simpa using lines_of_lines h
  · rintro rfl
    obtain ⟨ls, h⟩ := exists_lines s.toList
    have hls : lines s = ls := by simpa using lines_of_lines h
    rwa [hls]

theorem join_cons {sep s : String} {ls : List String} (h : ls ≠ []) :
    join sep (s :: ls) = s ++ sep ++ join sep ls := by
  obtain ⟨t, ls, rfl⟩ := List.exists_cons_of_ne_nil h
  rfl

theorem join_of_lines {cs : List Char} {ls : List String} (h : Lines cs ls) (hr : '\r' ∉ cs)
    (hend : cs.getLast? ≠ some '\n') : join "\n" ls = String.ofList cs := by
  induction h with
  | nil => rfl
  | last _ _ => rfl
  | @lf line rest ls hline hlast hrest ih =>
    have hne : rest ≠ [] := by
      rintro rfl
      simp at hend
    have hls : ls ≠ [] := by
      cases hrest with
      | nil => exact absurd rfl hne
      | last | lf | crlf => exact List.cons_ne_nil _ _
    have hjoin : join "\n" ls = String.ofList rest := by
      refine ih (fun hmem => hr (by simp [hmem])) ?_
      obtain ⟨c, rest, rfl⟩ := List.exists_cons_of_ne_nil hne
      simpa [List.getLast?_append, List.getLast?_cons] using hend
    rw [join_cons hls, hjoin]
    exact String.toList_inj.mp (by simp)
  | crlf => exact absurd (by simp) hr

end Text

namespace Scripted.World

theorem answerTo_sentinel (lines : List String) (answers : List (List String)) :
    answerTo (lines ++ [sentinel]) answers = (lines.takeWhile (· ≠ sentinel), answers) := by
  have htake : (lines ++ [sentinel]).takeWhile (· ≠ sentinel) =
      lines.takeWhile (· ≠ sentinel) := by
    induction lines with
    | nil => simp
    | cons line lines ih =>
      rw [List.cons_append, List.takeWhile_cons, List.takeWhile_cons, ih]
  simp only [answerTo, htake]
  simp

section

variable (w : World)

@[simp] theorem keep_answers (b : Behaviour) (name : String) (args : Json) (c : CallContext) :
    (w.keep b name args c).answers = w.answers := by
  unfold keep
  split <;> rfl

@[simp] theorem takeProcess_answers (script : Keyed (List Behaviour)) (name : String) (args : Json)
    (c : CallContext) : (w.takeProcess script name args c).2.answers = w.answers := by
  simp [takeProcess, cancel]

@[simp] theorem runHook_answers (hook : HookCall) : (w.runHook hook).answers = w.answers := by
  unfold runHook
  split
  · rfl
  · simp [record]

@[simp] theorem settle_answers : w.settle.answers = w.answers := by
  have hfold (hooks : List HookCall) (v : World) :
      (hooks.foldl runHook v).answers = v.answers := by
    induction hooks generalizing v with
    | nil => rfl
    | cons hook hooks ih => rw [List.foldl_cons, ih, runHook_answers]
  exact hfold w.waiting { w with waiting := [] }

@[simp] theorem wait_answers (b : Behaviour) : (w.wait b).answers = w.answers := by
  unfold wait
  split
  · rfl
  · exact w.settle_answers

end

end Scripted.World

variable {σ : Type}

structure Services.Seeded (sv : Services σ) (queue : σ → Option (List (List String))) : Prop where
  render {w : σ} {answers : List (List String)} (h : queue w = some answers) (r : RenderRequest) :
    (sv.render r w).1 = .ok (Scripted.World.answerTo r.seed answers).1 ∧
      queue (sv.render r w).2 = some (Scripted.World.answerTo r.seed answers).2
  process (name : String) (args : Json) (c : CallContext) (w : σ) :
    queue (sv.process name args c w).2 = queue w
  request (payload : Json) (c : CallContext) (w : σ) : queue (sv.request payload c w).2 = queue w
  chat (r : ChatRequest) (c : CallContext) (w : σ) : queue (sv.chat r c w).2 = queue w
  notify (hook : HookCall) (w : σ) : queue (sv.notify hook w) = queue w

theorem Scripted.services_seeded : Scripted.services.Seeded Scripted.World.answers where
  render hw r := by
    constructor <;> simp [Scripted.services, Scripted.World.render, hw, Scripted.World.record]
  process name args c w := by
    simp only [Scripted.services, Scripted.World.process]
    split <;> simp [Scripted.World.record]
  request payload c w := by
    simp only [Scripted.services, Scripted.World.request]
    split <;> simp [Scripted.World.record, Scripted.World.cancel]
  chat r c w := by
    simp only [Scripted.services, Scripted.World.chat]
    split
    · rfl
    · split <;> simp [Scripted.World.record]
  notify hook w := by
    simp only [Scripted.services, Scripted.World.notify]
    split <;> simp

namespace Engine

variable (eng : Engine σ)

/-- A question that the terminal puts without an answer prepared for it. -/
def asks (s : Scene σ) (n : Node Pipe) : Bool :=
  match n.kind with
  | .userInput ui autofill => autofill.isNone && ui.isInteractive &&
      (eng.boundInput s.run.stack.top.data n).isOk
  | _ => false

def Answered (queue : σ → Option (List (List String))) (s : Scene σ) (n : Node Pipe)
    (lines : List String) (left : List (List String)) : Prop :=
  ∃ w, queue w = some left ∧ eng.dispatch s n =
    ((s.run.mapOutput eng.evaluator n (.str (Text.join "\n" lines))).map .advance,
      { s with world := w })

variable {eng} {queue : σ → Option (List (List String))} {s : Scene σ} {n : Node Pipe}
  {answers : List (List String)}

theorem answered_of_seed (h : eng.services.Seeded queue) (hq : queue s.world = some answers)
    {ui : UiKind} {autofill : Option String} {bound : Json} {seed : List String}
    (hk : n.kind = .userInput ui autofill) (hui : ui.isInteractive = true)
    (hbound : eng.boundInput s.run.stack.top.data n = .ok bound)
    (hseed : eng.seed s.run.stack.top.dataValue autofill = .ok seed) :
    eng.Answered queue s n (Scripted.World.answerTo seed answers).1
      (Scripted.World.answerTo seed answers).2 := by
  obtain ⟨hanswer, hleft⟩ := h.render hq ⟨n.name, n.label, bound, seed⟩
  refine ⟨_, hleft, ?_⟩
  simp only [dispatch, hk, dispatchUserInput, hbound, hui, if_true, hseed, hanswer]
  rfl

variable (eng) in
theorem seed_some {data : Json} {template : String} {seed : List String}
    (h : eng.seed data (some template) = .ok seed) :
    ∃ j, eng.evaluator.render template data = .ok j ∧
      seed = Text.lines (Json.text j) ++ [sentinel] := by
  obtain ⟨j, hj, hseed⟩ := map_eq_ok h
  exact ⟨j, hj, hseed.symm⟩

theorem asks_of_kind {ui : UiKind} {autofill : Option String}
    (hk : n.kind = .userInput ui autofill) : eng.asks s n =
      (autofill.isNone && ui.isInteractive && (eng.boundInput s.run.stack.top.data n).isOk) := by
  simp only [asks, hk]

theorem answered_of_asks (h : eng.services.Seeded queue) (hq : queue s.world = some answers)
    (hasks : eng.asks s n = true) :
    eng.Answered queue s n (answers.head?.getD []) (answers.drop 1) := by
  cases hk : n.kind with
  | userInput ui autofill =>
    rw [asks_of_kind hk, Bool.and_eq_true, Bool.and_eq_true, Option.isNone_iff_eq_none] at hasks
    obtain ⟨⟨rfl, hui⟩, hbound⟩ := hasks
    cases hb : eng.boundInput s.run.stack.top.data n with
    | ok bound => exact answered_of_seed h hq hk hui hb rfl
    | error e =>
      rw [hb] at hbound
      cases hbound
  | process | request | ai | switch =>
    simp only [asks, hk] at hasks
    cases hasks

theorem queue_of_prepared (h : eng.services.Seeded queue) (hq : queue s.world = some answers)
    {ui : UiKind} {autofill : Option String} (hk : n.kind = .userInput ui autofill)
    (hasks : eng.asks s n = false) : queue (eng.dispatch s n).2.world = some answers := by
  rw [asks_of_kind hk] at hasks
  cases hbound : eng.boundInput s.run.stack.top.data n with
  | error e =>
    simp only [dispatch, hk, dispatchUserInput, hbound]
    exact hq
  | ok bound =>
    cases hui : ui.isInteractive with
    | false =>
      simp only [dispatch, hk, dispatchUserInput, hbound, hui]
      exact hq
    | true =>
      cases autofill with
      | none =>
        rw [hui, hbound] at hasks
        cases hasks
      | some template =>
        cases hseed : eng.seed s.run.stack.top.dataValue (some template) with
        | error e =>
          simp only [dispatch, hk, dispatchUserInput, hbound, hui, hseed]
          exact hq
        | ok seed =>
          obtain ⟨j, -, rfl⟩ := eng.seed_some hseed
          obtain ⟨w, hw, hd⟩ := answered_of_seed h hq hk hui hbound hseed
          rw [hd]
          rwa [Scripted.World.answerTo_sentinel] at hw

theorem queue_of_silent (h : eng.services.Seeded queue) (hq : queue s.world = some answers)
    (hasks : eng.asks s n = false) : queue (eng.dispatch s n).2.world = some answers := by
  cases hk : n.kind with
  | process name args =>
    simp only [dispatch, hk]
    split
    · exact hq
    · rw [finish_world, h.process, hq]
  | request payload =>
    simp only [dispatch, hk]
    split
    · exact hq
    · rw [finish_world, h.request, hq]
  | ai prompts model options =>
    simp only [dispatch, hk, dispatchAi]
    split
    · exact hq
    · split
      · exact hq
      · rw [readReply_world]
        refine eng.notifyAll_keeps (P := fun w => queue w = some answers) _ _ ?_ ?_
        · intro _ _ chunk w hw
          rw [h.notify, hw]
        · rw [h.chat, hq]
  | switch cases =>
    simp only [dispatch, hk]
    exact hq
  | userInput ui autofill => exact queue_of_prepared h hq hk hasks

/-- Only a question without a prepared answer takes one from the queue. -/
theorem queue_dispatch (h : eng.services.Seeded queue) (hq : queue s.world = some answers) :
    queue (eng.dispatch s n).2.world =
      some (if eng.asks s n then answers.drop 1 else answers) := by
  cases hasks : eng.asks s n with
  | false => exact queue_of_silent h hq hasks
  | true =>
    obtain ⟨w, hw, hd⟩ := answered_of_asks h hq hasks
    rw [hd]
    exact hw

theorem world_of_idle {token : Option String} {l : Loop σ} (h : eng.runsNode token l = false) :
    (eng.turn token l).scene.world = l.scene.world := by
  have absurd_of {n : Node Pipe} (hc : eng.isCancelled token l.scene.world = false)
      (hn : l.scene.run.stack.top.current? = some n) (hleft : l.left ≠ 0) : False :=
    Bool.false_ne_true (h.symm.trans (runsNode_of_current hc hn hleft))
  cases ht : eng.turn token l with
  | more l' =>
    have hc := not_cancelled_of_more ht
    cases eng.moves_of_turn ht with
    | advance hn hleft _ _ | enter hn hleft _ => exact (absurd_of hc hn (by omega)).elim
    | leave | again => rfl
  | done result t =>
    cases eng.ends_of_turn ht with
    | failed hc hn hleft _ | astray hc hn hleft _ _ | paused hc hn hleft _ =>
      exact (absurd_of hc hn hleft).elim
    | cancelled | exhausted | caseFailed | rootFailed | completed => rfl

theorem world_of_runsNode {token : Option String} {l : Loop σ}
    (h : eng.runsNode token l = true) : ∃ n, l.scene.run.current? = some n ∧
      (eng.turn token l).scene.world = (eng.dispatch l.scene n).2.world := by
  obtain ⟨⟨run, w⟩, left⟩ := l
  obtain ⟨hwants, hleft⟩ := runsNode_eq_true.mp h
  obtain ⟨hc, n, hn⟩ := wantsNode_eq_true.mp hwants
  obtain ⟨left, rfl⟩ := Nat.exists_eq_succ_of_ne_zero hleft
  refine ⟨n, hn, ?_⟩
  rw [eng.turn_node hc hn]
  exact (eng.runNode_scene ⟨run, w⟩ n left).1

variable (eng) in
def asking? (s : System σ) : Action σ → Option (Scene σ × Node Pipe)
  | .turn h => match s.hands h with
    | some ⟨a, .running run left⟩ =>
      if eng.runsNode a.token ⟨⟨run, s.world⟩, left⟩ then
        (run.current?.filter (eng.asks ⟨run, s.world⟩)).map fun n => (⟨run, s.world⟩, n)
      else none
    | _ => none
  | _ => none

variable (eng) in
def askings : System σ → List (Action σ) → List (Scene σ × Node Pipe)
  | _, [] => []
  | s, act :: acts => (eng.asking? s act).toList ++ askings (eng.step s act) acts

variable (eng) in
def LeavesQueue (queue : σ → Option (List (List String))) : System σ → List (Action σ) → Prop
  | _, [] => True
  | s, act :: acts => (∀ w, act = .outside w → queue w = queue s.world) ∧
      LeavesQueue queue (eng.step s act) acts

theorem asking?_eq_some {s : System σ} {act : Action σ} {x : Scene σ × Node Pipe}
    (h : eng.asking? s act = some x) : x.1.world = s.world ∧ eng.asks x.1 x.2 = true := by
  unfold asking? at h
  split at h
  · split at h
    · split at h
      · obtain ⟨n, hn, rfl⟩ := Option.map_eq_some_iff.mp h
        exact ⟨rfl, (Option.filter_eq_some_iff.mp hn).2⟩
      · cases h
    · cases h
  · cases h

theorem queue_turn (h : eng.services.Seeded queue) {s : System σ}
    (hq : queue s.world = some answers) {hand : Nat} {a : Attempt} {run : Run} {left : Nat}
    (hx : s.hands hand = some ⟨a, .running run left⟩) :
    queue (eng.turn a.token ⟨⟨run, s.world⟩, left⟩).scene.world =
      some (answers.drop (eng.asking? s (.turn hand)).toList.length) := by
  cases hruns : eng.runsNode a.token ⟨⟨run, s.world⟩, left⟩ with
  | false =>
    rw [world_of_idle hruns, hq]
    simp [asking?, hx, hruns]
  | true =>
    obtain ⟨n, hn, hworld⟩ := world_of_runsNode hruns
    dsimp only at hn
    rw [hworld, queue_dispatch h hq]
    cases hasks : eng.asks ⟨run, s.world⟩ n with
    | false => simp [asking?, hx, hruns, hn, hasks, Option.filter_some]
    | true => simp [asking?, hx, hruns, hn, hasks, Option.filter_some]

theorem queue_step (h : eng.services.Seeded queue) {s : System σ}
    (hq : queue s.world = some answers) {act : Action σ}
    (hact : ∀ w, act = .outside w → queue w = queue s.world) :
    queue (eng.step s act).world = some (answers.drop (eng.asking? s act).toList.length) := by
  cases act with
  | turn hand =>
    by_cases hx : ∃ a run left, s.hands hand = some ⟨a, .running run left⟩
    · obtain ⟨a, run, left, hx⟩ := hx
      rw [eng.world_of_turn_step hx]
      exact queue_turn h hq hx
    · have hstep : eng.step s (.turn hand) = s := by
        simp only [step]
        split
        next a run left hx' => exact absurd ⟨a, run, left, hx'⟩ hx
        · rfl
      have hnone : eng.asking? s (.turn hand) = none := by
        simp only [asking?]
        split
        next a run left hx' => exact absurd ⟨a, run, left, hx'⟩ hx
        · rfl
      rw [hstep, hnone]
      exact hq
  | outside w => exact (hact w rfl).trans hq
  | _ =>
    rw [eng.world_step _ (by simp) (by simp)]
    exact hq

theorem queue_play (h : eng.services.Seeded queue) {s : System σ}
    (hq : queue s.world = some answers) {acts : List (Action σ)}
    (hacts : eng.LeavesQueue queue s acts) :
    queue (eng.play s acts).world = some (answers.drop (eng.askings s acts).length) ∧
      ∀ i x, (eng.askings s acts)[i]? = some x →
        queue x.1.world = some (answers.drop i) ∧ eng.asks x.1 x.2 = true := by
  induction acts generalizing s answers with
  | nil => exact ⟨hq, by simp [askings]⟩
  | cons act acts ih =>
    obtain ⟨hact, hrest⟩ := hacts
    obtain ⟨hplay, hasked⟩ := ih (queue_step h hq hact) hrest
    rw [askings]
    cases hask : eng.asking? s act with
    | none =>
      rw [hask] at hplay hasked
      exact ⟨hplay, hasked⟩
    | some first =>
      rw [hask] at hplay hasked
      refine ⟨?_, fun i x hx => ?_⟩
      · rw [play, List.foldl_cons, ← play, hplay, List.drop_drop]
        simp [Nat.add_comm]
      · cases i with
        | zero =>
          obtain rfl : first = x := by simpa using hx
          obtain ⟨hworld, hasks⟩ := asking?_eq_some hask
          exact ⟨by rw [hworld, hq, List.drop_zero], hasks⟩
        | succ i =>
          obtain ⟨hleft, hasks⟩ := hasked i x (by simpa using hx)
          refine ⟨hleft.trans ?_, hasks⟩
          rw [List.drop_drop]
          simp [Nat.add_comm]

/-- A question with an answer prepared for it is answered with the lines of the prepared text up to
the first that is the sentinel, so with the text itself if it has neither carriage returns nor such
a line nor a line feed at its end, and no answer is taken from the queue. Any other question is
answered with the next answer of the queue, or with nothing if there is none left. So in any steps
of any runs the queued answers go to the questions without prepared answers, one to each, in the
order in which the questions are put. -/
theorem queued_answers (eng : Engine σ) {queue : σ → Option (List (List String))}
    (h : eng.services.Seeded queue) (answers : List (List String)) :
    (∀ (s : Scene σ) (n : Node Pipe) ui autofill bound, queue s.world = some answers →
      n.kind = .userInput ui autofill → ui.isInteractive = true →
      eng.boundInput s.run.stack.top.data n = .ok bound →
        (∀ template j, autofill = some template →
          eng.evaluator.render template s.run.stack.top.dataValue = .ok j →
            ∃ lines, Text.Lines (Json.text j).toList lines ∧
              eng.Answered queue s n (lines.takeWhile (· ≠ sentinel)) answers ∧
              ('\r' ∉ (Json.text j).toList → sentinel ∉ lines →
                (Json.text j).toList.getLast? ≠ some '\n' →
                  Text.join "\n" (lines.takeWhile (· ≠ sentinel)) = Json.text j)) ∧
        (autofill = none →
          eng.Answered queue s n (answers.head?.getD []) (answers.drop 1))) ∧
    ∀ (s : System σ) (acts : List (Action σ)), queue s.world = some answers →
      eng.LeavesQueue queue s acts →
        queue (eng.play s acts).world = some (answers.drop (eng.askings s acts).length) ∧
        ∀ i x, (eng.askings s acts)[i]? = some x →
          eng.Answered queue x.1 x.2 (answers[i]?.getD []) (answers.drop (i + 1)) := by
  refine ⟨fun s n ui autofill bound hq hk hui hbound => ⟨?_, ?_⟩, fun s acts hq hacts => ?_⟩
  · rintro template j rfl hj
    have hseed : eng.seed s.run.stack.top.dataValue (some template) =
        .ok (Text.lines (Json.text j) ++ [sentinel]) := by
      simp only [seed, hj]
      rfl
    have hlines := Text.lines_iff.mpr (rfl : Text.lines (Json.text j) = _)
    have hanswered := answered_of_seed h hq hk hui hbound hseed
    rw [Scripted.World.answerTo_sentinel] at hanswered
    refine ⟨_, hlines, hanswered, fun hr hnone hend => ?_⟩
    rw [List.takeWhile_eq_self_iff.mpr, Text.join_of_lines hlines hr hend, String.ofList_toList]
    intro line hline
    simpa using ne_of_mem_of_not_mem hline hnone
  · rintro rfl
    exact answered_of_seed h hq hk hui hbound rfl
  · obtain ⟨hplay, hasked⟩ := queue_play h hq hacts
    refine ⟨hplay, fun i x hx => ?_⟩
    obtain ⟨hleft, hasks⟩ := hasked i x hx
    have hanswered := answered_of_asks h hleft hasks
    rwa [List.head?_drop, List.drop_drop] at hanswered

end Engine

def cliNode (name : String) (index : Nat) (autofill : Option String) : Node Pipe :=
  ⟨name, "", index, .userInput .cli autofill, none, none⟩

def interviewPipe : Pipe :=
  ⟨"main", "main", [cliNode "first" 0 none, cliNode "prepared" 1 (some "a\n\nb"),
    cliNode "second" 2 none, cliNode "third" 3 none], none, none, none, none, none, none, none⟩

def interviewEngine : Engine Scripted.World := ⟨.templates, Scripted.services, ⟨10, 0, 0⟩⟩

def interviewWorld : Scripted.World :=
  ⟨none, none, none, some [["x", "y"], ["z"]], [], [], [], [], [], 0, 0, 0⟩

def interviewSystem : System Scripted.World :=
  interviewEngine.play (.init interviewWorld) [.start "r" interviewPipe, .exec 0 []]

theorem queued_answers_interview :
    interviewEngine.Answered Scripted.World.answers ⟨.start "r" interviewPipe, interviewWorld⟩
        (cliNode "prepared" 1 (some "a\n\nb")) ["a", "", "b"] [["x", "y"], ["z"]] ∧
      ∃ first second third,
        interviewEngine.askings interviewSystem (List.replicate 4 (.turn 0)) =
          [first, second, third] ∧
        interviewEngine.Answered Scripted.World.answers first.1 first.2 ["x", "y"] [["z"]] ∧
        interviewEngine.Answered Scripted.World.answers second.1 second.2 ["z"] [] ∧
        interviewEngine.Answered Scripted.World.answers third.1 third.2 [] [] := by
  obtain ⟨hnodes, hsteps⟩ := interviewEngine.queued_answers Scripted.services_seeded
    [["x", "y"], ["z"]]
  constructor
  · obtain ⟨hprepared, -⟩ := hnodes ⟨.start "r" interviewPipe, interviewWorld⟩
      (cliNode "prepared" 1 (some "a\n\nb")) .cli _ (.arr []) rfl rfl rfl (by rfl)
    obtain ⟨lines, hlines, hanswered, -⟩ := hprepared _ (.str "a\n\nb") rfl (by decide +kernel)
    have hthree : Text.lines "a\n\nb" = ["a", "", "b"] := by decide +kernel
    obtain rfl : ["a", "", "b"] = lines := hthree.symm.trans (Text.lines_iff.mp hlines)
    exact hanswered
  · have hthree : (interviewEngine.askings interviewSystem
        (List.replicate 4 (.turn 0))).length = 3 := by decide +kernel
    obtain ⟨-, hasked⟩ := hsteps interviewSystem (List.replicate 4 (.turn 0)) (by rfl)
      ⟨by simp, by simp, by simp, by simp, trivial⟩
    obtain ⟨first, second, third, h⟩ := List.length_eq_three.mp hthree
    rw [h] at hasked ⊢
    exact ⟨first, second, third, rfl, hasked 0 first rfl, hasked 1 second rfl, hasked 2 third rfl⟩

end Pipework
