import Mathlib.Data.List.Basic
import Mathlib.Data.List.DropRight
import Pipework.Prompt

/-!
# What is remembered under a key

A memory that starts empty and then is merged into and cleared, key by key, holds under a key the
prompts merged there since the key was last cleared, each fingerprint once and where it came first.
The fingerprints that count as seen are found anew from what is held at every merge, so that they
stay in step with the list has to be shown within a batch and across batches.
-/

namespace Pipework

namespace Prompt

def firsts : List Prompt → List Prompt
  | [] => []
  | p :: ps => p :: (firsts ps).filter fun q => q.fingerprint ≠ p.fingerprint

theorem fresh_eq (prints : List String) (ps : List Prompt) :
    fresh prints ps = (firsts ps).filter fun p => p.fingerprint ∉ prints := by
  induction ps generalizing prints with
  | nil => rfl
  | cons p ps ih =>
    by_cases hp : p.fingerprint ∈ prints
    · have hskip : ∀ q ∈ firsts ps, (decide (q.fingerprint ∉ prints) &&
          decide (q.fingerprint ≠ p.fingerprint)) = decide (q.fingerprint ∉ prints) := by
        intro q _
        by_cases hq : q.fingerprint = p.fingerprint
        · simp [hq, hp]
        · simp [hq]
      simp only [fresh, firsts, List.contains_iff_mem, hp, if_true, List.filter_cons, not_true,
        decide_false, Bool.false_eq_true, if_false, List.filter_filter, ih]
      exact (List.filter_congr hskip).symm
    · simp [fresh, firsts, hp, ih, List.filter_filter, not_or, Bool.and_comm]

theorem mem_firsts_of_mem {p : Prompt} {ps : List Prompt} (h : p ∈ ps) :
    ∃ q ∈ firsts ps, q.fingerprint = p.fingerprint := by
  induction ps with
  | nil => cases h
  | cons r ps ih =>
    by_cases hr : r.fingerprint = p.fingerprint
    · exact ⟨r, List.mem_cons_self, hr⟩
    · have hp : p ∈ ps := by
        apply (List.mem_cons.mp h).resolve_left
        intro he
        exact hr (he ▸ rfl)
      obtain ⟨q, hq, hqp⟩ := ih hp
      refine ⟨q, List.mem_cons_of_mem r (List.mem_filter.mpr ⟨hq, ?_⟩), hqp⟩
      simpa [hqp] using Ne.symm hr

theorem mem_of_mem_firsts {p : Prompt} {ps : List Prompt} (h : p ∈ firsts ps) : p ∈ ps := by
  induction ps with
  | nil => exact h
  | cons q ps ih =>
    rcases List.mem_cons.mp h with rfl | h
    · exact List.mem_cons_self
    · exact List.mem_cons_of_mem q (ih (List.mem_filter.mp h).1)

theorem mem_prints_firsts {print : String} {ps : List Prompt} :
    print ∈ (firsts ps).map fingerprint ↔ print ∈ ps.map fingerprint := by
  constructor
  · intro h
    obtain ⟨p, hp, rfl⟩ := List.mem_map.mp h
    exact List.mem_map_of_mem (mem_of_mem_firsts hp)
  · intro h
    obtain ⟨p, hp, rfl⟩ := List.mem_map.mp h
    obtain ⟨q, hq, hqp⟩ := mem_firsts_of_mem hp
    exact hqp ▸ List.mem_map_of_mem hq

theorem nodup_firsts (ps : List Prompt) : ((firsts ps).map fingerprint).Nodup := by
  induction ps with
  | nil => exact List.nodup_nil
  | cons p ps ih =>
    rw [firsts, List.map_cons, List.nodup_cons]
    refine ⟨?_, ih.sublist (List.filter_sublist.map fingerprint)⟩
    intro h
    obtain ⟨q, hq, hqp⟩ := List.mem_map.mp h
    simp [hqp] at hq

theorem firsts_append (ps qs : List Prompt) :
    firsts (ps ++ qs) =
      firsts ps ++ (firsts qs).filter fun q => q.fingerprint ∉ (firsts ps).map fingerprint := by
  induction ps with
  | nil => simp [firsts]
  | cons p ps ih =>
    have hseen : ∀ q ∈ firsts qs, (decide (q.fingerprint ≠ p.fingerprint) &&
        decide (q.fingerprint ∉ (firsts ps).map fingerprint)) =
        decide (q.fingerprint ∉ (firsts (p :: ps)).map fingerprint) := by
      intro q _
      rw [← Bool.decide_and, decide_eq_decide, mem_prints_firsts, mem_prints_firsts, List.map_cons,
        List.mem_cons, not_or]
    rw [List.cons_append, firsts, ih, List.filter_append, List.filter_filter,
      List.filter_congr hseen]
    rfl

end Prompt

namespace PromptMemory

open Prompt (firsts fingerprint)

theorem merged_eq (m : PromptMemory) (key : String) (ps : List Prompt) :
    merged m key ps = (Keyed.get? m key).getD [] ++
      (firsts ps).filter fun p =>
        p.fingerprint ∉ ((Keyed.get? m key).getD []).map fingerprint := by
  rw [merged, Prompt.fresh_eq]

theorem get?_merge (m : PromptMemory) (key other : String) (ps : List Prompt) :
    Keyed.get? (merge m key ps) other =
      if other = key then some (merged m key ps) else Keyed.get? m other :=
  Keyed.get?_put m key other _

inductive Step where
  | merge (key : String) (prompts : List Prompt)
  | clear (key : String)
  deriving DecidableEq

def Step.key : Step → String
  | merge key _ => key
  | clear key => key

def Step.apply (m : PromptMemory) : Step → PromptMemory
  | merge key prompts => PromptMemory.merge m key prompts
  | clear key => PromptMemory.clear m key

def after (steps : List Step) : PromptMemory := steps.foldl Step.apply []

def Step.batch? (key : String) : Step → Option (List Prompt)
  | merge other prompts => if other = key then some prompts else none
  | clear _ => none

/-- The batches merged under a key since the key was last cleared, in their order. -/
def batches (key : String) (steps : List Step) : List (List Prompt) :=
  (steps.rtakeWhile fun s => s ≠ .clear key).filterMap (Step.batch? key)

theorem Step.get?_apply_of_ne (m : PromptMemory) {s : Step} {other : String} (h : other ≠ s.key) :
    Keyed.get? (s.apply m) other = Keyed.get? m other := by
  cases s with
  | merge key prompts => exact Keyed.get?_put_of_ne m h _
  | clear key => exact Keyed.get?_erase_of_ne m h

theorem after_concat (steps : List Step) (s : Step) : after (steps ++ [s]) = s.apply (after steps) :=
  List.foldl_concat ..

theorem batches_concat_clear (steps : List Step) (key : String) :
    batches key (steps ++ [.clear key]) = [] := by
  simp [batches]

theorem batches_concat (steps : List Step) {s : Step} {key : String} (h : s ≠ .clear key) :
    batches key (steps ++ [s]) = batches key steps ++ (s.batch? key).toList := by
  cases hb : s.batch? key <;> simp [batches, h, hb]

theorem batches_append (steps : List Step) {later : List Step} {key : String}
    (h : .clear key ∉ later) :
    batches key (steps ++ later) = batches key steps ++ later.filterMap (Step.batch? key) := by
  induction later using List.reverseRecOn with
  | nil => simp
  | append_singleton later s ih =>
    rw [List.mem_append, not_or] at h
    rw [← List.append_assoc, batches_concat _ fun he => h.2 (he ▸ List.mem_singleton_self s), ih h.1]
    cases hb : s.batch? key <;> simp [hb]

/-- What is held is settled by the batches since the last clearing. -/
theorem get?_after (steps : List Step) (key : String) :
    Keyed.get? (after steps) key =
      if batches key steps = [] then none else some (firsts (batches key steps).flatten) := by
  induction steps using List.reverseRecOn with
  | nil => rfl
  | append_singleton steps s ih =>
    rw [after_concat]
    by_cases hs : key = s.key
    · cases s with
      | merge other prompts =>
        obtain rfl : key = other := hs
        have hheld : (Keyed.get? (after steps) key).getD [] =
            firsts (batches key steps).flatten := by
          rw [ih]
          split
          next hnone => rw [hnone]; rfl
          · rfl
        rw [batches_concat _ (by simp), Step.apply, get?_merge, if_pos rfl, merged_eq, hheld]
        simp [Step.batch?, Prompt.firsts_append]
      | clear other =>
        obtain rfl : key = other := hs
        rw [batches_concat_clear]
        exact Keyed.get?_erase_self _ key
    · have hclear : s ≠ .clear key := fun he => hs (he ▸ rfl)
      have hbatch : s.batch? key = none := by
        cases s with
        | merge other prompts => exact if_neg (Ne.symm hs)
        | clear other => rfl
      rw [Step.get?_apply_of_ne _ hs, ih, batches_concat _ hclear, hbatch, Option.toList_none,
        List.append_nil]

theorem merge_merge (m : PromptMemory) (key : String) (xs ys : List Prompt) :
    merge (merge m key xs) key ys = merge m key (xs ++ ys) := by
  have hmerged : merged (merge m key xs) key ys = merged m key (xs ++ ys) := by
    -- the second merge has seen what was held and what the first one has added to it
    have hseen : ∀ q ∈ firsts ys,
        decide (q.fingerprint ∉ (merged m key xs).map fingerprint) =
          (decide (q.fingerprint ∉ ((Keyed.get? m key).getD []).map fingerprint) &&
            decide (q.fingerprint ∉ (firsts xs).map fingerprint)) := by
      intro q _
      rw [← Bool.decide_and, decide_eq_decide, merged_eq, List.map_append, List.mem_append, not_or]
      apply and_congr_right
      intro hheld
      refine not_congr ⟨fun h => ?_, fun h => ?_⟩
      · exact (List.filter_sublist.map fingerprint).subset h
      · obtain ⟨p, hp, hpq⟩ := List.mem_map.mp h
        exact List.mem_map.mpr ⟨p, List.mem_filter.mpr ⟨hp, by simpa [hpq] using hheld⟩, hpq⟩
    rw [merged_eq, get?_merge, if_pos rfl, Option.getD_some, List.filter_congr hseen, merged_eq,
      merged_eq, Prompt.firsts_append, List.filter_append, List.filter_filter, List.append_assoc]
  rw [merge, merge, merge, Keyed.put_put, ← hmerged, merge]

theorem merge_of_held {m : PromptMemory} {key : String} {held ps : List Prompt}
    (hheld : Keyed.get? m key = some held)
    (hps : ∀ p ∈ ps, p.fingerprint ∈ held.map fingerprint) : merge m key ps = m := by
  have hmerged : merged m key ps = held := by
    rw [merged_eq, hheld, Option.getD_some, List.append_right_eq_self, List.filter_eq_nil_iff]
    intro p hp
    simpa using hps p (Prompt.mem_of_mem_firsts hp)
  rw [merge, hmerged]
  exact Keyed.put_of_get? hheld

theorem prefix_after (steps : List Step) {later : List Step} {key : String}
    (h : .clear key ∉ later) {held : List Prompt}
    (hheld : Keyed.get? (after steps) key = some held) :
    ∃ new, Keyed.get? (after (steps ++ later)) key = some (held ++ new) := by
  rw [get?_after] at hheld
  split at hheld
  next => cases hheld
  next hsome =>
    cases hheld
    rw [get?_after, batches_append steps h, List.flatten_append, Prompt.firsts_append,
      if_neg fun he => hsome (List.append_eq_nil_iff.mp he).1]
    exact ⟨_, rfl⟩

/-- Whatever has been merged and cleared, a key has no memory exactly if nothing has been merged
under it since it was last cleared. Else it has the prompts of all batches since then, one for each
fingerprint, and that is what the merge has returned. So no fingerprint is held twice, what is held
stays in front until the key is cleared, it does not matter how prompts are cut into batches,
prompts merged before add nothing, and no step changes what other keys hold. -/
theorem holds_firsts (steps : List Step) (key : String) :
    (Keyed.get? (after steps) key = none ↔ batches key steps = []) ∧
    (batches key steps ≠ [] →
      Keyed.get? (after steps) key = some (firsts (batches key steps).flatten)) ∧
    (∀ ps, Keyed.get? (after (steps ++ [.merge key ps])) key =
      some (merged (after steps) key ps)) ∧
    (∀ held, Keyed.get? (after steps) key = some held → (held.map fingerprint).Nodup) ∧
    (∀ later held, .clear key ∉ later → Keyed.get? (after steps) key = some held →
      ∃ new, Keyed.get? (after (steps ++ later)) key = some (held ++ new)) ∧
    (∀ xs ys, after (steps ++ [.merge key xs, .merge key ys]) =
      after (steps ++ [.merge key (xs ++ ys)])) ∧
    (∀ ps, batches key steps ≠ [] → ps ⊆ (batches key steps).flatten →
      after (steps ++ [.merge key ps]) = after steps) ∧
    (∀ s : Step, s.key ≠ key →
      Keyed.get? (after (steps ++ [s])) key = Keyed.get? (after steps) key) := by
  have hget := get?_after steps key
  refine ⟨?_, ?_, ?_, ?_, ?_, ?_, ?_, ?_⟩
  · rw [hget]
    split <;> simp [*]
  · intro h
    rw [hget, if_neg h]
  · intro ps
    rw [after_concat, Step.apply, get?_merge, if_pos rfl]
  · intro held hheld
    rw [hget] at hheld
    split at hheld
    · cases hheld
    · cases hheld
      exact Prompt.nodup_firsts _
  · intro later held hlater hheld
    exact prefix_after steps hlater hheld
  · intro xs ys
    rw [List.append_cons, after_concat, after_concat, after_concat]
    exact merge_merge (after steps) key xs ys
  · intro ps hsome hps
    rw [after_concat]
    apply merge_of_held (hget.trans (if_neg hsome))
    intro p hp
    rw [Prompt.mem_prints_firsts]
    exact List.mem_map_of_mem (hps hp)
  · intro s hs
    rw [after_concat]
    exact Step.get?_apply_of_ne _ (Ne.symm hs)

/-- Under `a` a prompt comes back in a second batch, after an earlier memory has been cleared and
with a merge under `b` between the batches. -/
def repeatingSteps : List Step :=
  [.merge "a" [⟨"user", none, "old"⟩], .clear "a",
    .merge "a" [⟨"system", none, "be brief"⟩, ⟨"user", none, "hello"⟩],
    .merge "b" [⟨"user", none, "hello"⟩],
    .merge "a" [⟨"user", none, "hello"⟩, ⟨"user", none, "more"⟩]]

theorem holds_repeatingSteps :
    let held : List Prompt :=
      [⟨"system", none, "be brief"⟩, ⟨"user", none, "hello"⟩, ⟨"user", none, "more"⟩]
    let later : List Step := [.merge "a" [⟨"user", none, "old"⟩], .clear "b"]
    let again : List Prompt := [⟨"user", none, "more"⟩, ⟨"system", none, "be brief"⟩]
    batches "a" repeatingSteps ≠ [] ∧
      Keyed.get? (after repeatingSteps) "a" = some held ∧
      (held.map fingerprint).Nodup ∧
      (.clear "a" ∉ later ∧
        ∃ new, Keyed.get? (after (repeatingSteps ++ later)) "a" = some (held ++ new)) ∧
      (again ⊆ (batches "a" repeatingSteps).flatten ∧
        after (repeatingSteps ++ [.merge "a" again]) = after repeatingSteps) ∧
      Keyed.get? (after (repeatingSteps ++ [.clear "b"])) "a" = some held := by
  intro held later again
  obtain ⟨-, hsome, -, hnodup, hlater, -, hagain, hother⟩ := holds_firsts repeatingSteps "a"
  have hbatches : batches "a" repeatingSteps ≠ [] := by decide +kernel
  have hheld : Keyed.get? (after repeatingSteps) "a" = some held := by
    rw [hsome hbatches]
    decide +kernel
  have hclear : .clear "a" ∉ later := by decide
  have hmem : again ⊆ (batches "a" repeatingSteps).flatten := by decide +kernel
  refine ⟨hbatches, hheld, hnodup held hheld, ⟨hclear, hlater later held hclear hheld⟩,
    ⟨hmem, hagain again hbatches hmem⟩, ?_⟩
  rw [hother (.clear "b") (by decide), hheld]

end PromptMemory

end Pipework
