import Pipework.Whitelist
import Pipework.Proofs.Globs

/-!
# What a whitelist allows

A namespace that ends in `.*` and a pattern without special characters are globs like all the others.
-/

namespace Pipework

namespace Glob

theorem token?_of_not_special {a : Char} (cs : List Char) (h : isSpecial a = false) :
    token? (a :: cs) = some (.literal a, cs) := by
  simp only [isSpecial, Bool.or_eq_false_iff, beq_eq_false_iff_ne] at h
  exact token?_literal cs h.1.1.1 h.1.1.2 h.1.2

theorem fits_tokens_append {front behind text : List Char} (h : front.any isSpecial = false) :
    Fits (tokens (front ++ behind)) text ↔
      ∃ rest, text = front ++ rest ∧ Fits (tokens behind) rest := by
  induction front generalizing text with
  | nil => simp
  | cons a front ih =>
    rw [List.any_cons, Bool.or_eq_false_iff] at h
    rw [List.cons_append, tokens_eq (token?_of_not_special _ h.1), fits_cons]
    constructor
    · rintro ⟨piece, rest, rfl, htakes, hrest⟩
      obtain ⟨rest, rfl, hbehind⟩ := (ih h.2).mp hrest
      obtain ⟨c, rfl⟩ := takes_of_ne_run (t := .literal a) (by simp) htakes
      cases beq_iff_eq.mp htakes
      exact ⟨rest, rfl, hbehind⟩
    · rintro ⟨rest, rfl, hbehind⟩
      exact ⟨[a], front ++ rest, rfl, beq_self_eq_true a, (ih h.2).mpr ⟨rest, rfl, hbehind⟩⟩

theorem isMatch_literal {pattern : List Char} (h : pattern.any isSpecial = false)
    (text : List Char) : isMatch pattern text = true ↔ pattern = text := by
  rw [isMatch_iff_fits, ← List.append_nil pattern, fits_tokens_append h]
  simp [fits_nil, eq_comm]

theorem isMatch_front {front : List Char} (h : front.any isSpecial = false) (text : List Char) :
    isMatch (front ++ ['*']) text = true ↔ front <+: text := by
  rw [isMatch_iff_fits, fits_tokens_append h]
  constructor
  · rintro ⟨rest, rfl, -⟩
    exact List.prefix_append ..
  · rintro ⟨rest, rfl⟩
    refine ⟨rest, rfl, ?_⟩
    rw [tokens_eq (rfl : token? ['*'] = some (.run, [])), fits_run]
    exact ⟨rest.length, by simp [fits_nil]⟩

end Glob

namespace Whitelist

open Glob (isMatch isSpecial)

theorem namespace?_eq_some_iff {pattern : String} {front : List Char} :
    Whitelist.namespace? pattern = some front ↔ pattern.toList = front ++ ['*'] ∧
      front.getLast? = some '.' ∧ front.any isSpecial = false := by
  unfold namespace?
  constructor
  · intro h
    split at h
    next rest hrest =>
      dsimp only at h
      split at h
      · cases h
      next hnone =>
        cases h
        refine ⟨?_, by simp, by simpa using hnone⟩
        rw [List.reverse_eq_iff.mp hrest, List.reverse_cons]
    · cases h
  · rintro ⟨hpattern, hdot, hfront⟩
    obtain ⟨before, rfl⟩ := List.getLast?_eq_some_iff.mp hdot
    simp [hpattern, hfront]

theorem covers_or_eq (pattern name : String) :
    (pattern = name ∨ covers pattern name = true) ↔
      (pattern = name ∨ isMatch pattern.toList name.toList = true) := by
  unfold covers
  cases hns : namespace? pattern with
  | some front =>
    obtain ⟨hpattern, -, hfront⟩ := namespace?_eq_some_iff.mp hns
    rw [hpattern, Glob.isMatch_front hfront]
    simp
  | none =>
    cases hspecial : pattern.toList.any isSpecial with
    | true => simp
    | false =>
      rw [Glob.isMatch_literal hspecial, String.toList_inj]
      simp

theorem allows_iff (w : Whitelist) (name : String) : w.allows name = true ↔
    w.patterns = [] ∨ ∃ p ∈ w.patterns, p = name ∨ isMatch p.toList name.toList = true := by
  have hsome : (∃ p ∈ w.patterns, p = name ∨ isMatch p.toList name.toList = true) ↔
      name ∈ w.patterns ∨ ∃ p ∈ w.patterns, covers p name = true := by
    simp only [← covers_or_eq, and_or_left, exists_or, exists_eq_right]
  rw [hsome]
  simp [allows, or_assoc]

/-- Neither the namespaces, nor the test for special characters, nor the order of the patterns make a
difference to the globs. -/
theorem allows_as_globs :
    (∀ (w : Whitelist) (name : String), w.allows name = true ↔
      w.patterns = [] ∨ ∃ p ∈ w.patterns, p = name ∨ isMatch p.toList name.toList = true) ∧
    (∀ (pattern : String) (front : List Char), pattern.toList = front ++ ['*'] →
      front.getLast? = some '.' → front.any isSpecial = false →
      Whitelist.namespace? pattern = some front ∧
      ∀ name : String, front <+: name.toList ↔ isMatch pattern.toList name.toList = true) ∧
    (∀ pattern name : String, pattern.toList.any isSpecial = false →
      (isMatch pattern.toList name.toList = true ↔ pattern = name)) ∧
    ∀ (patterns patterns' : List String) (name : String), patterns.Perm patterns' →
      allows ⟨patterns⟩ name = allows ⟨patterns'⟩ name := by
  refine ⟨allows_iff, ?_, ?_, ?_⟩
  · intro pattern front hpattern hdot hfront
    refine ⟨namespace?_eq_some_iff.mpr ⟨hpattern, hdot, hfront⟩, fun name => ?_⟩
    rw [hpattern]
    exact (Glob.isMatch_front hfront _).symm
  · intro pattern name h
    rw [Glob.isMatch_literal h, String.toList_inj]
  · intro patterns patterns' name h
    have hnil : patterns = [] ↔ patterns' = [] := by
      rw [← List.length_eq_zero_iff, h.length_eq, List.length_eq_zero_iff]
    rw [Bool.eq_iff_iff, allows_iff, allows_iff]
    simp only [hnil, h.mem_iff]

theorem allows_as_globs_utils :
    Whitelist.namespace? "utils.*" = some "utils.".toList ∧
    isMatch "utils.*".toList "utils.clean".toList = true ∧
    isMatch "db".toList "db".toList = true ∧
    allows ⟨["db", "utils.*"]⟩ "utils.clean" = allows ⟨["utils.*", "db"]⟩ "utils.clean" := by
  obtain ⟨hnamespace, hmatch⟩ :=
    allows_as_globs.2.1 "utils.*" "utils.".toList (by decide) (by decide) (by decide)
  exact ⟨hnamespace, (hmatch "utils.clean").mp (by decide),
    (allows_as_globs.2.2.1 "db" "db" (by decide)).mpr rfl,
    allows_as_globs.2.2.2 _ _ _ (.swap ..)⟩

end Whitelist

end Pipework
