import Pipework.Glob
import Mathlib.Data.List.Forall2

/-!
# What a glob matches

A pattern is read as tokens from the left to the right, and matches the texts that can be cut into
one piece for each token. The search finds out whether there is such a cut.
-/

namespace Pipework

namespace Glob

inductive Item
  | one (c : Char)
  | range (lo hi : Char)
  deriving DecidableEq, Repr

structure CharClass where
  negated : Bool
  items : List Item
  deriving DecidableEq, Repr

inductive Token
  | run
  | anyChar
  | oneOf (k : CharClass)
  | literal (c : Char)
  deriving DecidableEq, Repr

def Item.holds (c : Char) : Item → Bool
  | one a => a == c
  | range lo hi => lo ≤ c && c ≤ hi

def CharClass.holds (k : CharClass) (c : Char) : Bool := k.items.any (·.holds c) != k.negated

def items? (first : Bool) : List Char → Option (List Item × List Char)
  | [] => none
  | lo :: '-' :: hi :: cs =>
    if lo = ']' && !first then some ([], '-' :: hi :: cs)
    else if hi = ']' then
      (items? false ('-' :: hi :: cs)).map fun read => (.one lo :: read.1, read.2)
    else (items? false cs).map fun read => (.range lo hi :: read.1, read.2)
  | lo :: cs =>
    if lo = ']' && !first then some ([], cs)
    else (items? false cs).map fun read => (.one lo :: read.1, read.2)

def class? : List Char → Option (CharClass × List Char)
  | '!' :: cs => (items? true cs).map fun read => (⟨true, read.1⟩, read.2)
  | '^' :: cs => (items? true cs).map fun read => (⟨true, read.1⟩, read.2)
  | cs => (items? true cs).map fun read => (⟨false, read.1⟩, read.2)

def token? : List Char → Option (Token × List Char)
  | [] => none
  | '*' :: cs => some (.run, cs)
  | '?' :: cs => some (.anyChar, cs)
  | '[' :: cs => match class? cs with
    | some (k, rest) => some (.oneOf k, rest)
    | none => some (.literal '[', cs)
  | a :: cs => some (.literal a, cs)

theorem items?_suffix {first : Bool} {cs rest : List Char} {items : List Item}
    (h : items? first cs = some (items, rest)) : rest <:+ cs := by
  fun_induction items? first cs generalizing items with
  | case1 => cases h
  | case2 first lo hi cs hclose =>
    cases h
    exact List.suffix_cons ..
  | case3 first lo cs hopen ih =>
    obtain ⟨read, hread, hrest⟩ := Option.map_eq_some_iff.mp h
    cases hrest
    exact (ih hread).trans (List.suffix_cons ..)
  | case4 first lo hi cs hopen hhi ih =>
    obtain ⟨read, hread, hrest⟩ := Option.map_eq_some_iff.mp h
    cases hrest
    exact (ih hread).trans (List.suffix_append [lo, '-', hi] cs)
  | case5 first lo cs hshort hclose =>
    cases h
    exact List.suffix_cons ..
  | case6 first lo cs hshort hopen ih =>
    obtain ⟨read, hread, hrest⟩ := Option.map_eq_some_iff.mp h
    cases hrest
    exact (ih hread).trans (List.suffix_cons ..)

theorem class?_suffix {cs rest : List Char} {k : CharClass} (h : class? cs = some (k, rest)) :
    rest <:+ cs := by
  fun_cases class? cs with
  | case1 cs =>
    obtain ⟨read, hread, hrest⟩ := Option.map_eq_some_iff.mp h
    cases hrest
    exact (items?_suffix hread).trans (List.suffix_cons ..)
  | case2 cs =>
    obtain ⟨read, hread, hrest⟩ := Option.map_eq_some_iff.mp h
    cases hrest
    exact (items?_suffix hread).trans (List.suffix_cons ..)
  | case3 cs =>
    simp only [class?] at h
    obtain ⟨read, hread, hrest⟩ := Option.map_eq_some_iff.mp h
    cases hrest
    exact items?_suffix hread

theorem token?_class {cs rest : List Char} {k : CharClass} (h : class? cs = some (k, rest)) :
    token? ('[' :: cs) = some (.oneOf k, rest) := by
  simp only [token?, h]

theorem token?_bracket {cs : List Char} (h : class? cs = none) :
    token? ('[' :: cs) = some (.literal '[', cs) := by
  simp only [token?, h]

theorem token?_literal {a : Char} (cs : List Char) (hrun : a ≠ '*') (hany : a ≠ '?')
    (hclass : a ≠ '[') : token? (a :: cs) = some (.literal a, cs) := by
  simp only [token?]

theorem token?_suffix {pattern rest : List Char} {t : Token}
    (h : token? pattern = some (t, rest)) : rest <:+ pattern.tail := by
  fun_cases token? pattern with
  | case1 => cases h
  | case2 cs | case3 cs =>
    cases h
    exact List.suffix_rfl
  | case4 cs k behind hk =>
    cases (token?_class hk).symm.trans h
    exact class?_suffix hk
  | case5 cs hk =>
    cases (token?_bracket hk).symm.trans h
    exact List.suffix_rfl
  | case6 a cs hrun hany hclass =>
    cases (token?_literal cs hrun hany hclass).symm.trans h
    exact List.suffix_rfl

theorem token?_shorter {pattern rest : List Char} {t : Token}
    (h : token? pattern = some (t, rest)) : rest.length < pattern.length := by
  cases pattern with
  | nil => cases h
  | cons a cs => exact Nat.lt_succ_of_le (token?_suffix h).length_le

theorem token?_cons (a : Char) (cs : List Char) : ∃ t rest, token? (a :: cs) = some (t, rest) := by
  generalize hpattern : a :: cs = pattern
  fun_cases token? pattern with
  | case1 => cases hpattern
  | case2 | case3 | case4 | case5 | case6 => exact ⟨_, _, rfl⟩

theorem token?_eq_run {pattern rest : List Char} (h : token? pattern = some (.run, rest)) :
    pattern = '*' :: rest := by
  fun_cases token? pattern with
  | case1 => cases h
  | case2 cs =>
    cases h
    rfl
  | case3 cs => cases h
  | case4 cs k behind hk => cases (token?_class hk).symm.trans h
  | case5 cs hk => cases (token?_bracket hk).symm.trans h
  | case6 a cs hrun hany hclass => cases (token?_literal cs hrun hany hclass).symm.trans h

def tokens (pattern : List Char) : List Token :=
  match _h : token? pattern with
  | none => []
  | some (t, rest) => t :: tokens rest
termination_by pattern.length
decreasing_by exact token?_shorter _h

@[simp] theorem tokens_nil : tokens [] = [] := by
  rw [tokens]
  rfl

theorem tokens_eq {pattern rest : List Char} {t : Token} (h : token? pattern = some (t, rest)) :
    tokens pattern = t :: tokens rest := by
  rw [tokens]
  split
  · simp_all
  · simp_all

def Token.takes : Token → List Char → Bool
  | run, _ => true
  | anyChar, [_] => true
  | oneOf k, [c] => k.holds c
  | literal a, [c] => a == c
  | _, _ => false

/-- The text can be cut into one piece for each of the tokens, in their order. -/
def Fits (ts : List Token) (text : List Char) : Prop :=
  ∃ pieces, List.Forall₂ (fun t piece => Token.takes t piece = true) ts pieces ∧
    pieces.flatten = text

theorem takes_of_ne_run {t : Token} {piece : List Char} (ht : t ≠ .run)
    (h : t.takes piece = true) : ∃ c, piece = [c] := by
  cases t with
  | run => exact absurd rfl ht
  | anyChar | oneOf | literal =>
    obtain _ | ⟨c, _ | _⟩ := piece
    · cases h
    · exact ⟨c, rfl⟩
    · cases h

theorem fits_nil {text : List Char} : Fits [] text ↔ text = [] := by
  constructor
  · rintro ⟨pieces, hpieces, rfl⟩
    cases hpieces
    rfl
  · rintro rfl
    exact ⟨[], .nil, rfl⟩

theorem fits_cons {t : Token} {ts : List Token} {text : List Char} :
    Fits (t :: ts) text ↔ ∃ piece rest, piece ++ rest = text ∧ t.takes piece = true ∧ Fits ts rest := by
  constructor
  · rintro ⟨pieces, hpieces, rfl⟩
    cases hpieces with
    | cons htakes hrest => exact ⟨_, _, rfl, htakes, _, hrest, rfl⟩
  · rintro ⟨piece, rest, rfl, htakes, pieces, hpieces, rfl⟩
    exact ⟨piece :: pieces, .cons htakes hpieces, rfl⟩

theorem fits_run {ts : List Token} {text : List Char} :
    Fits (.run :: ts) text ↔ ∃ k, Fits ts (text.drop k) := by
  rw [fits_cons]
  constructor
  · rintro ⟨piece, rest, rfl, -, h⟩
    exact ⟨piece.length, by simpa using h⟩
  · rintro ⟨k, h⟩
    exact ⟨text.take k, text.drop k, List.take_append_drop k text, rfl, h⟩

theorem fits_run_drop {ts : List Token} {text : List Char} {k : Nat}
    (h : Fits (.run :: ts) (text.drop k)) : Fits (.run :: ts) text := by
  obtain ⟨j, hj⟩ := fits_run.mp h
  exact fits_run.mpr ⟨k + j, by rwa [List.drop_drop] at hj⟩

theorem fits_run_step {ts : List Token} {text : List Char} :
    Fits (.run :: ts) text ↔ Fits ts text ∨ Fits (.run :: ts) (text.drop 1) := by
  constructor
  · intro h
    obtain ⟨k, hk⟩ := fits_run.mp h
    cases k with
    | zero => exact .inl hk
    | succ k => exact .inr (fits_run.mpr ⟨k, by rwa [List.drop_drop, Nat.add_comm]⟩)
  · rintro (h | h)
    · exact fits_run.mpr ⟨0, h⟩
    · exact fits_run_drop h

theorem not_fits_cons_nil {t : Token} {ts : List Token} (ht : t ≠ .run) : ¬ Fits (t :: ts) [] := by
  intro h
  obtain ⟨piece, rest, htext, htakes, -⟩ := fits_cons.mp h
  obtain ⟨c, rfl⟩ := takes_of_ne_run ht htakes
  cases htext

theorem fits_cons_cons {t : Token} {ts : List Token} {c : Char} {cs : List Char} (ht : t ≠ .run) :
    Fits (t :: ts) (c :: cs) ↔ t.takes [c] = true ∧ Fits ts cs := by
  rw [fits_cons]
  constructor
  · rintro ⟨piece, rest, htext, htakes, h⟩
    obtain ⟨a, rfl⟩ := takes_of_ne_run ht htakes
    cases htext
    exact ⟨htakes, h⟩
  · rintro ⟨htakes, h⟩
    exact ⟨[c], cs, rfl, htakes, h⟩

theorem Fits.drop {front ts : List Token} {text : List Char} (hfront : Token.run ∉ front)
    (h : Fits (front ++ ts) text) : Fits ts (text.drop front.length) := by
  induction front generalizing text with
  | nil => exact h
  | cons t front ih =>
    have ht : t ≠ .run := fun he => hfront (he ▸ List.mem_cons_self)
    cases text with
    | nil => exact absurd h (not_fits_cons_nil ht)
    | cons c cs =>
      exact ih (fun hmem => hfront (List.mem_cons_of_mem t hmem)) ((fits_cons_cons ht).mp h).2

theorem fits_tokens_nil {pattern : List Char} :
    Fits (tokens pattern) [] ↔ pattern.all (· == '*') = true := by
  induction pattern with
  | nil => simp [fits_nil]
  | cons a cs ih =>
    by_cases ha : a = '*'
    · subst ha
      rw [tokens_eq (rfl : token? ('*' :: cs) = some (.run, cs)), fits_run]
      simpa using ih
    · obtain ⟨t, rest, ht⟩ := token?_cons a cs
      have hrun : t ≠ .run := by
        rintro rfl
        exact ha (List.cons.inj (token?_eq_run ht)).1
      rw [tokens_eq ht]
      simp [not_fits_cons_nil hrun, ha]

theorem listed?_eq (c : Char) (first hit : Bool) (i : Nat) (cs : List Char) :
    listed? c first hit i cs = (items? first cs).map fun read =>
      (hit || read.1.any (·.holds c), i + (cs.length - read.2.length)) := by
  fun_induction items? first cs generalizing hit i with
  | case1 => rfl
  | case2 first lo hi cs hclose => simp [listed?, hclose]
  | case3 first lo cs hopen ih =>
    rw [listed?, if_neg hopen, if_pos rfl, ih, Option.map_map]
    refine Option.map_congr fun read hread => ?_
    have hlen := (items?_suffix hread).length_le
    simp only [Function.comp_apply, List.any_cons, Item.holds, Bool.or_assoc, Prod.mk.injEq,
      true_and, List.length_cons] at hlen ⊢
    omega
  | case4 first lo hi cs hopen hhi ih =>
    rw [listed?, if_neg hopen, if_neg hhi, ih, Option.map_map]
    refine Option.map_congr fun read hread => ?_
    have hlen := (items?_suffix hread).length_le
    simp only [Function.comp_apply, List.any_cons, Item.holds, Bool.or_assoc, Prod.mk.injEq,
      true_and, List.length_cons]
    omega
  | case5 first lo cs hshort hclose => simp [listed?, hclose]
  | case6 first lo cs hshort hopen ih =>
    rw [listed?, if_neg hopen, ih, Option.map_map]
    · refine Option.map_congr fun read hread => ?_
      have hlen := (items?_suffix hread).length_le
      simp only [Function.comp_apply, List.any_cons, Item.holds, Bool.or_assoc, Prod.mk.injEq,
        true_and, List.length_cons]
      omega
    · exact hshort

section Places

variable {pattern : Array Char} {i : Nat} {a c : Char}

theorem drop_of_getElem? (h : pattern[i]? = some a) :
    pattern.toList.drop i = a :: pattern.toList.drop (i + 1) := by
  obtain ⟨hlt, rfl⟩ := Array.getElem?_eq_some_iff.mp h
  exact List.drop_eq_getElem_cons hlt

theorem drop_of_getElem?_none (h : pattern[i]? = none) : pattern.toList.drop i = [] :=
  List.drop_eq_nil_of_le (Array.getElem?_eq_none_iff.mp h)

theorem drop_size_sub {rest : List Char} (h : rest <:+ pattern.toList.drop i) :
    pattern.toList.drop (pattern.size - rest.length) = rest := by
  have hrest := h.trans (List.drop_suffix i pattern.toList)
  exact (List.suffix_iff_eq_drop.mp hrest).symm

theorem inClass?_eq (hi : i < pattern.size) :
    inClass? pattern i c = (class? (pattern.toList.drop (i + 1))).map fun read =>
      (read.1.holds c, pattern.size - read.2.length) := by
  have hlen : (pattern.toList.drop (i + 1)).length = pattern.size - (i + 1) := by simp
  unfold inClass?
  generalize pattern.toList.drop (i + 1) = behind at hlen
  fun_cases class? behind with
  | case1 cs | case2 cs =>
    simp only [listed?_eq, Option.map_map]
    refine Option.map_congr fun read hread => ?_
    have hle := (items?_suffix hread).length_le
    rw [List.length_cons] at hlen
    simp only [Function.comp_apply, Bool.false_or, CharClass.holds, Bool.bne_true, Prod.mk.injEq,
      true_and]
    omega
  | case3 cs hbang hcaret =>
    split
    · exact absurd rfl (hbang _)
    · exact absurd rfl (hcaret _)
    · rw [listed?_eq, Option.map_map]
      refine Option.map_congr fun read hread => ?_
      have hle := (items?_suffix hread).length_le
      simp only [Function.comp_apply, Bool.false_or, CharClass.holds, Bool.bne_false, Prod.mk.injEq,
        true_and]
      omega

theorem after?_eq {t : Token} {rest : List Char}
    (h : token? (pattern.toList.drop i) = some (t, rest)) (ht : t ≠ .run) :
    after? pattern i c = if t.takes [c] then some (pattern.size - rest.length) else none := by
  have hlen : (pattern.toList.drop i).length = pattern.size - i := by simp
  unfold after?
  cases hi : pattern[i]? with
  | none =>
    rw [drop_of_getElem?_none hi] at h
    cases h
  | some a =>
    obtain ⟨hlt, -⟩ := Array.getElem?_eq_some_iff.mp hi
    rw [drop_of_getElem? hi] at h hlen
    rw [List.length_cons] at hlen
    have hnext : pattern.size - (pattern.toList.drop (i + 1)).length = i + 1 := by omega
    by_cases hany : a = '?'
    · subst hany
      cases (rfl : token? ('?' :: pattern.toList.drop (i + 1)) = _).symm.trans h
      rw [hnext]
      rfl
    by_cases hclass : a = '['
    · subst hclass
      simp only [inClass?_eq hlt]
      cases hk : class? (pattern.toList.drop (i + 1)) with
      | none =>
        cases (token?_bracket hk).symm.trans h
        simp only [Option.map_none, Token.takes, hnext, beq_iff_eq]
        exact if_congr eq_comm rfl rfl
      | some read =>
        cases (token?_class hk).symm.trans h
        cases hholds : read.1.holds c <;> simp [Token.takes, hholds]
    by_cases hrun : a = '*'
    · subst hrun
      cases (rfl : token? ('*' :: pattern.toList.drop (i + 1)) = _).symm.trans h
      exact absurd rfl ht
    · cases (token?_literal _ hrun hany hclass).symm.trans h
      simp only [Token.takes, hnext, beq_iff_eq]

end Places

section Turns

variable {pattern text : Array Char} {s s' : Spot} {c : Char}

def Spot.ahead (pattern : Array Char) (s : Spot) : List Char := pattern.toList.drop s.inPattern

def Spot.left (text : Array Char) (s : Spot) : List Char := text.toList.drop s.inText

/-- The spot is in the pattern and in the text, and there is no `*` between it and the last one: each
token there has taken one character. -/
structure Spot.Tracks (pattern text : Array Char) (s : Spot) : Prop where
  inPattern : s.inPattern ≤ pattern.size
  inText : s.inText ≤ text.size
  since {star taken : Nat} : s.star = some (star, taken) → star < s.inPattern ∧
    ∃ front, Token.run ∉ front ∧ taken + front.length = s.inText ∧
      tokens (pattern.toList.drop (star + 1)) = front ++ tokens (s.ahead pattern)

/-- The last `*` can take another character or more, so that all after it matches. -/
def Spot.Regains (pattern text : Array Char) (s : Spot) : Prop :=
  ∃ star taken, s.star = some (star, taken) ∧
    Fits (.run :: tokens (pattern.toList.drop (star + 1))) (text.toList.drop (taken + 1))

theorem Spot.regains_iff {star taken : Nat} (h : s.star = some (star, taken)) :
    s.Regains pattern text ↔
      Fits (.run :: tokens (pattern.toList.drop (star + 1))) (text.toList.drop (taken + 1)) := by
  constructor
  · rintro ⟨star', taken', h', hfits⟩
    cases h.symm.trans h'
    exact hfits
  · exact fun hfits => ⟨star, taken, h, hfits⟩

def Spot.Open (pattern text : Array Char) (s : Spot) : Prop :=
  Fits (tokens (s.ahead pattern)) (s.left text) ∨ s.Regains pattern text

theorem start_tracks : start.Tracks pattern text := ⟨Nat.zero_le _, Nat.zero_le _, fun h => by cases h⟩

theorem start_open : start.Open pattern text ↔ Fits (tokens pattern.toList) text.toList := by
  constructor
  · rintro (h | ⟨star, taken, h, -⟩)
    · exact h
    · cases h
  · exact .inl

theorem Spot.Regains.skip (h : s.Regains pattern text) (ht : s.Tracks pattern text) :
    ∃ k, Fits (tokens (s.ahead pattern)) ((s.left text).drop (k + 1)) := by
  obtain ⟨star, taken, hstar, hfits⟩ := h
  obtain ⟨-, front, hfront, hlen, htokens⟩ := ht.since hstar
  rw [htokens] at hfits
  obtain ⟨k, hk⟩ := fits_run.mp hfits
  refine ⟨k, ?_⟩
  have hbehind := Fits.drop hfront hk
  rw [List.drop_drop, List.drop_drop] at hbehind
  rw [Spot.left, List.drop_drop, ← hlen]
  rwa [show taken + front.length + (k + 1) = taken + 1 + (k + front.length) by omega]

theorem pack_lt {n a a' b b' : Nat} (ha : a < a') (hb : b ≤ n) : pack n a b < pack n a' b' := by
  calc a * (n + 1) + b < (a + 1) * (n + 1) := by rw [Nat.succ_mul]; omega
    _ ≤ a' * (n + 1) := Nat.mul_le_mul_right _ ha
    _ ≤ a' * (n + 1) + b' := Nat.le_add_right ..

theorem pack_lt_left {n a b b' : Nat} (hb : b < b') : pack n a b < pack n a b' :=
  Nat.add_lt_add_left hb _

structure Spot.Onward (pattern text : Array Char) (s s' : Spot) : Prop where
  tracks : s'.Tracks pattern text
  open_ : s'.Open pattern text ↔ s.Open pattern text
  sooner : s'.fuel pattern.size text.size < s.fuel pattern.size text.size

/-- A `*` is met. The ones before it need not be thought of any more: where the last of them takes
more, this one takes less. -/
theorem Spot.Tracks.met (ht : s.Tracks pattern text) (hp : pattern[s.inPattern]? = some '*') :
    s.Onward pattern text ⟨s.inPattern + 1, s.inText, some (s.inPattern, s.inText)⟩ := by
  obtain ⟨hlt, -⟩ := Array.getElem?_eq_some_iff.mp hp
  have hahead : tokens (s.ahead pattern) = .run :: tokens (pattern.toList.drop (s.inPattern + 1)) := by
    rw [Spot.ahead, drop_of_getElem? hp]
    exact tokens_eq rfl
  have hopen : s.Open pattern text ↔ Fits (tokens (s.ahead pattern)) (s.left text) := by
    refine ⟨?_, .inl⟩
    rintro (h | h)
    · exact h
    · obtain ⟨k, hk⟩ := h.skip ht
      rw [hahead] at hk ⊢
      exact fits_run_drop hk
  refine ⟨⟨hlt, ht.inText, ?_⟩, ?_, ?_⟩
  · rintro star taken ⟨⟩
    exact ⟨Nat.lt_succ_self _, [], List.not_mem_nil, rfl, rfl⟩
  · rw [hopen, hahead, fits_run_step, Spot.left, List.drop_drop]
    exact or_congr Iff.rfl (Spot.regains_iff rfl)
  · cases hstar : s.star with
    | none =>
      simp only [Spot.fuel, hstar]
      exact pack_lt (pack_lt (by omega) (by omega)) (by omega)
    | some last =>
      obtain ⟨hbefore, -⟩ := ht.since hstar
      simp only [Spot.fuel, hstar]
      exact pack_lt (pack_lt (by omega) (by omega)) (by omega)

theorem Spot.ahead_of_ne (c : Char) (hp : pattern[s.inPattern]? ≠ some '*') :
    (s.ahead pattern = [] ∧ after? pattern s.inPattern c = none) ∨
    ∃ t rest, token? (s.ahead pattern) = some (t, rest) ∧ t ≠ .run ∧
      after? pattern s.inPattern c =
        if t.takes [c] then some (pattern.size - rest.length) else none := by
  cases ha : pattern[s.inPattern]? with
  | none => exact .inl ⟨drop_of_getElem?_none ha, by simp only [after?, ha]⟩
  | some a =>
    have hahead : s.ahead pattern = _ := drop_of_getElem? ha
    obtain ⟨t, rest, ht⟩ := token?_cons a (pattern.toList.drop (s.inPattern + 1))
    rw [← hahead] at ht
    have hrun : t ≠ .run := by
      rintro rfl
      rw [hahead] at ht
      exact hp (ha.trans (congrArg some (List.cons.inj (token?_eq_run ht)).1))
    exact .inr ⟨t, rest, ht, hrun, after?_eq ht hrun⟩

theorem Spot.Tracks.took {next : Nat} (ht : s.Tracks pattern text) (hc : text[s.inText]? = some c)
    (hp : pattern[s.inPattern]? ≠ some '*') (hnext : after? pattern s.inPattern c = some next) :
    s.Onward pattern text ⟨next, s.inText + 1, s.star⟩ := by
  obtain ⟨hlt, -⟩ := Array.getElem?_eq_some_iff.mp hc
  obtain ⟨-, hnone⟩ | ⟨t, rest, htoken, hrun, hafter⟩ := s.ahead_of_ne c hp
  · cases hnone.symm.trans hnext
  by_cases htakes : t.takes [c] = true
  swap
  · rw [if_neg htakes] at hafter
    cases hafter.symm.trans hnext
  rw [if_pos htakes] at hafter
  cases hafter.symm.trans hnext
  have hrest : pattern.toList.drop (pattern.size - rest.length) = rest :=
    drop_size_sub ((token?_suffix htoken).trans (List.tail_suffix _))
  have hshorter : rest.length < pattern.size - s.inPattern := by
    simpa [Spot.ahead] using token?_shorter htoken
  refine ⟨⟨Nat.sub_le .., hlt, ?_⟩, or_congr ?_ Iff.rfl, ?_⟩
  · intro star taken hstar
    obtain ⟨hbefore, front, hfront, hlen, htokens⟩ := ht.since hstar
    have hnext : star < pattern.size - rest.length := by omega
    refine ⟨hnext, front ++ [t], by simp [hfront, hrun.symm], by simp; omega, ?_⟩
    rw [htokens, tokens_eq htoken, Spot.ahead, hrest, List.append_assoc, List.singleton_append]
  · rw [Spot.ahead, Spot.left, hrest, tokens_eq htoken, Spot.left, drop_of_getElem? hc,
      fits_cons_cons hrun]
    exact ⟨fun h => ⟨htakes, h⟩, And.right⟩
  · exact pack_lt_left (Nat.sub_lt_sub_left hlt (Nat.lt_succ_self _))

/-- The character is not taken. Then the last `*` takes one more, or there is no match. -/
theorem Spot.open_iff_regains (hc : text[s.inText]? = some c)
    (hp : pattern[s.inPattern]? ≠ some '*') (hnext : after? pattern s.inPattern c = none) :
    s.Open pattern text ↔ s.Regains pattern text := by
  refine ⟨fun h => h.resolve_left fun hfits => ?_, .inr⟩
  rw [Spot.left, drop_of_getElem? hc] at hfits
  obtain ⟨hnil, -⟩ | ⟨t, rest, htoken, hrun, hafter⟩ := s.ahead_of_ne c hp
  · rw [hnil, tokens_nil, fits_nil] at hfits
    cases hfits
  · rw [tokens_eq htoken, fits_cons_cons hrun] at hfits
    rw [if_pos hfits.1] at hafter
    cases hafter.symm.trans hnext

theorem Spot.Tracks.gave {star taken : Nat} (ht : s.Tracks pattern text)
    (hc : text[s.inText]? = some c) (hp : pattern[s.inPattern]? ≠ some '*')
    (hnext : after? pattern s.inPattern c = none) (hstar : s.star = some (star, taken)) :
    s.Onward pattern text ⟨star + 1, taken + 1, some (star, taken + 1)⟩ := by
  obtain ⟨hlt, -⟩ := Array.getElem?_eq_some_iff.mp hc
  obtain ⟨hbefore, front, -, hlen, -⟩ := ht.since hstar
  have hin := ht.inPattern
  refine ⟨⟨by simp; omega, by simp; omega, ?_⟩, ?_, ?_⟩
  · rintro star' taken' ⟨⟩
    exact ⟨Nat.lt_succ_self _, [], List.not_mem_nil, rfl, rfl⟩
  · rw [s.open_iff_regains hc hp hnext]
    rw [Spot.regains_iff hstar, fits_run_step, List.drop_drop]
    exact or_congr Iff.rfl (Spot.regains_iff rfl)
  · simp only [Spot.fuel, hstar]
    exact pack_lt (pack_lt_left (by omega)) (by omega)

theorem turn_inl (ht : s.Tracks pattern text) (h : turn pattern text s = .inl s') :
    s.Onward pattern text s' := by
  unfold turn at h
  split at h
  · cases h
  next c hc =>
  split at h
  next hp =>
    cases h
    exact ht.met hp
  next hp =>
  split at h
  next behind hnext =>
    cases h
    exact ht.took hc hp hnext
  next hnext =>
  split at h
  next star taken hstar =>
    cases h
    exact ht.gave hc hp hnext hstar
  next => cases h

theorem turn_inr {answer : Option Bool} (ht : s.Tracks pattern text)
    (h : turn pattern text s = .inr answer) :
    ∃ b, answer = some b ∧ (b = true ↔ s.Open pattern text) := by
  unfold turn at h
  split at h
  next hend =>
    cases h
    have hleft : s.left text = [] := drop_of_getElem?_none hend
    refine ⟨_, by rw [runsOnly?, if_pos ht.inPattern], ?_⟩
    rw [← Spot.ahead, ← fits_tokens_nil, ← hleft]
    refine ⟨.inl, ?_⟩
    rintro (h | h)
    · exact h
    · obtain ⟨k, hk⟩ := h.skip ht
      rwa [hleft, List.drop_nil, ← hleft] at hk
  next c hc =>
  split at h
  · cases h
  next hp =>
  split at h
  · cases h
  next hnext =>
  split at h
  · cases h
  next hstar =>
    cases h
    refine ⟨false, rfl, ?_⟩
    rw [s.open_iff_regains hc hp hnext]
    refine ⟨fun h => absurd h Bool.false_ne_true, ?_⟩
    rintro ⟨star, taken, h, -⟩
    cases hstar.symm.trans h

end Turns

theorem search_spec {pattern text : Array Char} {fuel : Nat} {s : Spot} (ht : s.Tracks pattern text)
    (hfuel : s.fuel pattern.size text.size < fuel) :
    ∃ b, search pattern text fuel s = some b ∧ (b = true ↔ s.Open pattern text) := by
  induction fuel generalizing s with
  | zero => exact absurd hfuel (Nat.not_lt_zero _)
  | succ fuel ih =>
    simp only [search]
    cases hturn : turn pattern text s with
    | inl s' =>
      have hon := turn_inl ht hturn
      obtain ⟨b, hb, hiff⟩ := ih hon.tracks (Nat.lt_of_lt_of_le hon.sooner (Nat.le_of_lt_succ hfuel))
      exact ⟨b, hb, hiff.trans hon.open_⟩
    | inr answer => exact turn_inr ht hturn

theorem isMatch?_spec (pattern text : List Char) :
    ∃ b, isMatch? pattern text = some b ∧ (b = true ↔ Fits (tokens pattern) text) := by
  obtain ⟨b, hb, hiff⟩ := search_spec start_tracks
    (Nat.lt_succ_self (start.fuel pattern.toArray.size text.toArray.size))
  exact ⟨b, hb, hiff.trans start_open⟩

theorem isMatch_iff_fits {pattern text : List Char} :
    isMatch pattern text = true ↔ Fits (tokens pattern) text := by
  obtain ⟨b, hb, hiff⟩ := isMatch?_spec pattern text
  rw [isMatch, hb, Option.getD_some, hiff]

/-- The search ends, does not leave the pattern, and tells whether the text can be cut into one piece
for each token of the pattern. -/
theorem isMatch_decides (pattern text : List Char) :
    isMatch? pattern text = some (isMatch pattern text) ∧
    (isMatch pattern text = true ↔ ∃ pieces, pieces.flatten = text ∧
      List.Forall₂ (fun t piece => Token.takes t piece = true) (tokens pattern) pieces) := by
  obtain ⟨b, hb, -⟩ := isMatch?_spec pattern text
  refine ⟨by rw [isMatch, hb, Option.getD_some], ?_⟩
  rw [isMatch_iff_fits]
  exact exists_congr fun pieces => and_comm

end Glob

end Pipework
