import Mathlib.Data.List.TakeWhile
import Pipework.Template.Token

/-!
# Tokens in front of a closing mark

A token is the same whether blanks and closing braces follow it or nothing does. So the tokens of a
block are those of the text inside it, and the block ends at its last mark if it has no other one.
-/

namespace Pipework.Text

theorem occursIn_of_suffix {needle cs tail : List Char} (h : tail <:+ cs)
    (hcs : occursIn needle cs = false) : occursIn needle tail = false := by
  obtain ⟨front, rfl⟩ := h
  induction front with
  | nil => exact hcs
  | cons c front ih => exact ih (Bool.or_eq_false_iff.mp hcs).2

end Pipework.Text

namespace Pipework.Template.Token

def Inert (c : Char) : Prop := c = '}' ∨ Text.isBlank c = true

namespace Inert

variable {c : Char}

theorem not_isWordPart (h : Inert c) : isWordPart c = false := by
  rcases h with rfl | h
  · decide
  · simp only [Text.isBlank, Bool.or_eq_true, Bool.and_eq_true, decide_eq_true_eq, beq_iff_eq] at h
    have hunderscore : c ≠ '_' := by
      rintro rfl
      revert h
      decide
    have hc : c.toNat = c.val.toNat := rfl
    have hz : 'z'.val.toNat = 122 := rfl
    have ha : 'a'.val.toNat = 97 := rfl
    have hZ : 'Z'.val.toNat = 90 := rfl
    have hA : 'A'.val.toNat = 65 := rfl
    have h9 : '9'.val.toNat = 57 := rfl
    have h0 : '0'.val.toNat = 48 := rfl
    simp only [isWordPart, isWordStart, isDigit, Char.le_def, UInt32.le_iff_toNat_le,
      Bool.or_eq_false_iff, Bool.and_eq_false_iff, decide_eq_false_iff_not, beq_eq_false_iff_ne]
    refine ⟨⟨⟨?_, ?_⟩, hunderscore⟩, ?_⟩ <;> omega

theorem not_isWordStart (h : Inert c) : isWordStart c = false :=
  (Bool.or_eq_false_iff.mp h.not_isWordPart).1

theorem not_isDigit (h : Inert c) : isDigit c = false :=
  (Bool.or_eq_false_iff.mp h.not_isWordPart).2

theorem ne (h : Inert c) {d : Char} (hd : d ≠ '}' ∧ Text.isBlank d = false) : c ≠ d := by
  rintro rfl
  rcases h with h | h
  · exact hd.1 h
  · rw [hd.2] at h
    cases h

theorem hexValue? (h : Inert c) : Text.hexValue? c = none := by
  have hword := h.not_isWordPart
  simp only [isWordPart, isWordStart, isDigit, Bool.or_eq_false_iff, Bool.and_eq_false_iff,
    decide_eq_false_iff_not, Char.le_def, UInt32.le_iff_toNat_le] at hword
  have hz : 'z'.val.toNat = 122 := rfl
  have hf : 'f'.val.toNat = 102 := rfl
  have hZ : 'Z'.val.toNat = 90 := rfl
  have hF : 'F'.val.toNat = 70 := rfl
  simp only [Text.hexValue?, Bool.and_eq_true, decide_eq_true_eq, Char.le_def,
    UInt32.le_iff_toNat_le]
  rw [if_neg (by omega), if_neg (by omega), if_neg (by omega)]

theorem part (h : Inert c) (p : Part) (after : List Char) : p.next? c after = none := by
  have hpoint := h.ne (d := '.') (by decide)
  have he := h.ne (d := 'e') (by decide)
  have hE := h.ne (d := 'E') (by decide)
  have hplus := h.ne (d := '+') (by decide)
  have hminus := h.ne (d := '-') (by decide)
  have hline := h.ne (d := '_') (by decide)
  unfold Part.next?
  rw [if_neg (by rw [h.not_isDigit]; decide), if_neg hline]
  split <;> simp_all [h.hexValue?]

end Inert

theorem inert_closing {ws : List Char} (h : ∀ c ∈ ws, Text.isBlank c = true) :
    ∀ c ∈ '}' :: '}' :: ws, Inert c := by
  intro c hc
  rcases List.mem_cons.mp hc with rfl | hc
  · exact .inl rfl
  rcases List.mem_cons.mp hc with rfl | hc
  · exact .inl rfl
  · exact .inr (h c hc)

section

variable {s : List Char} (hs : ∀ c ∈ s, Inert c)

include hs

theorem takeWhile_append_inert {p : Char → Bool} (hp : ∀ c, Inert c → p c = false)
    (cs : List Char) : (cs ++ s).takeWhile p = cs.takeWhile p := by
  induction cs with
  | nil =>
    cases s with
    | nil => rfl
    | cons c s => simp [hp c (hs c List.mem_cons_self)]
  | cons c cs ih =>
    rw [List.cons_append, List.takeWhile_cons, List.takeWhile_cons, ih]

theorem dropWhile_append_inert {p : Char → Bool} (hp : ∀ c, Inert c → p c = false)
    (cs : List Char) : (cs ++ s).dropWhile p = cs.dropWhile p ++ s := by
  induction cs with
  | nil =>
    cases s with
    | nil => rfl
    | cons c s => simp [hp c (hs c List.mem_cons_self)]
  | cons c cs ih =>
    rw [List.cons_append, List.dropWhile_cons, List.dropWhile_cons, ih]
    split <;> rfl

theorem ne_cons_append {d : Char} (hd : d ≠ '}' ∧ Text.isBlank d = false) {r : List Char}
    (h : ∀ rest, r = d :: rest → False) (rest : List Char) : r ++ s ≠ d :: rest := by
  intro hrest
  cases r with
  | nil =>
    rw [List.nil_append] at hrest
    exact (hs d (by rw [hrest]; exact List.mem_cons_self)).ne hd rfl
  | cons x r => exact h r (by rw [(List.cons.inj hrest).1])

theorem closeQuote?_inert {quote : Char} (hquote : quote ≠ '}' ∧ Text.isBlank quote = false) :
    closeQuote? quote s = none := by
  fun_induction closeQuote? quote s with
  | case1 => rfl
  | case2 c cs ih =>
    rw [ih fun x hx => hs x (List.mem_cons_of_mem _ (List.mem_cons_of_mem _ hx))]
    rfl
  | case3 => exact absurd rfl ((hs _ List.mem_cons_self).ne hquote)
  | case4 c cs _ _ ih =>
    rw [ih fun x hx => hs x (List.mem_cons_of_mem _ hx)]
    rfl

theorem closeQuote?_append {quote : Char} (hquote : quote ≠ '}' ∧ Text.isBlank quote = false)
    (hslash : quote ≠ '\\') (cs : List Char) :
    closeQuote? quote (cs ++ s) =
      (closeQuote? quote cs).map fun (body, rest) => (body, rest ++ s) := by
  fun_induction closeQuote? quote cs with
  | case1 => exact closeQuote?_inert hs hquote
  | case2 c cs ih =>
    rw [List.cons_append, List.cons_append, closeQuote?, ih, Option.map_map, Option.map_map]
    rfl
  | case3 cs _ =>
    rw [List.cons_append, closeQuote?, if_pos rfl]
    · rfl
    · exact fun _ _ h => absurd h hslash
  | case4 c cs hescape hc ih =>
    by_cases hc' : c = '\\'
    · subst hc'
      have hcs : cs = [] := by
        cases cs with
        | nil => rfl
        | cons d cs => exact (hescape d cs rfl rfl).elim
      subst hcs
      have hnone : closeQuote? quote ['\\'] = none := by simp [closeQuote?, Ne.symm hslash]
      rw [closeQuote?, Option.map_none, Option.map_none, List.singleton_append]
      cases s with
      | nil => exact hnone
      | cons d s =>
        rw [closeQuote?, closeQuote?_inert (fun x hx => hs x (List.mem_cons_of_mem d hx)) hquote]
        rfl
    · rw [List.cons_append, closeQuote?, if_neg hc, ih, Option.map_map, Option.map_map]
      · rfl
      · exact fun _ _ h => absurd h hc'

theorem number_append (p : Part) (cs : List Char) :
    number p (cs ++ s) = ((number p cs).1, (number p cs).2.1, (number p cs).2.2 ++ s) := by
  have hnext (q : Part) (c : Char) (cs : List Char) : q.next? c (cs ++ s) = q.next? c cs := by
    cases cs with
    | cons d cs => rfl
    | nil =>
      cases s with
      | nil => rfl
      | cons d s =>
        have hd := (hs d List.mem_cons_self).not_isDigit
        unfold Part.next?
        simp [hd]
  fun_induction number p cs with
  | case1 p =>
    cases s with
    | nil => rfl
    | cons d s =>
      rw [List.nil_append, number, (hs d List.mem_cons_self).part]
  | case2 p c cs h =>
    rw [List.cons_append, number, hnext, h]
  | case3 p c cs q h taken last rest hrest ih =>
    rw [List.cons_append, number, hnext, h]
    simp only [hrest] at ih
    simp only [ih]

theorem numberStart_append {cs : List Char} (hcs : cs ≠ []) :
    numberStart (cs ++ s) = ((numberStart cs).1, (numberStart cs).2 ++ s) := by
  have hlater {d : Char} (hd : d ≠ '}' ∧ Text.isBlank d = false)
      (h : ∀ r, cs = '0' :: d :: r → False) (r : List Char) : cs ++ s ≠ '0' :: d :: r := by
    intro hr
    cases cs with
    | nil => exact hcs rfl
    | cons c cs =>
      rw [List.cons_append] at hr
      obtain ⟨rfl, hrest⟩ := List.cons.inj hr
      exact ne_cons_append hs hd (r := cs) (fun rest hrest => h rest (by rw [hrest])) r hrest
  fun_cases numberStart cs
  all_goals try rfl
  case case7 hb hB ho hO hx hX =>
    exact numberStart.eq_7 _ (hlater (by decide) hb) (hlater (by decide) hB)
      (hlater (by decide) ho) (hlater (by decide) hO) (hlater (by decide) hx)
      (hlater (by decide) hX)

theorem symbol?_append {cs : List Char} (hcs : cs ≠ []) :
    symbol? (cs ++ s) = (symbol? cs).map fun (t, rest) => (t, rest ++ s) := by
  have hslash {r : List Char} := ne_cons_append hs (d := '/') (r := r) (by decide)
  have hstar {r : List Char} := ne_cons_append hs (d := '*') (r := r) (by decide)
  have hequal {r : List Char} := ne_cons_append hs (d := '=') (r := r) (by decide)
  fun_cases symbol? cs
  all_goals try rfl
  case case9 r h => simp [symbol?, hstar h]
  case case10 r h => simp [symbol?, hslash h]
  case case17 r h => simp [symbol?, hequal h]
  case case18 r h => simp [symbol?, hequal h]
  case case19 r h => simp [symbol?, hequal h]
  case case26 =>
    cases cs with
    | nil => exact absurd rfl hcs
    | cons c r =>
      have hbang : ∀ rest, c :: (r ++ s) = '!' :: '=' :: rest → False := by
        intro rest h
        obtain ⟨rfl, hr⟩ := List.cons.inj h
        exact hequal (fun rest hrest => by simp_all) rest hr
      have hone {d : Char} (h : ∀ rest, c :: r = d :: rest → False) (rest : List Char) :
          c :: (r ++ s) ≠ d :: rest := by
        intro hrest
        exact h r (by rw [(List.cons.inj hrest).1])
      rw [List.cons_append]
      apply symbol?.eq_26
      all_goals first
        | exact hbang
        | exact hone (by assumption)
        | exact fun rest => hone (by assumption) (_ :: rest)

theorem next_append {cs : List Char} (hcs : cs ≠ []) :
    (next (cs ++ s)).1 = (next cs).1 ∧
      ((next cs).1.isBroken = false → (next (cs ++ s)).2 = (next cs).2 ++ s) := by
  cases cs with
  | nil => exact absurd rfl hcs
  | cons c r =>
    rw [List.cons_append, next, next]
    by_cases hword : isWordStart c = true
    · rw [if_pos hword, if_pos hword]
      have htake := takeWhile_append_inert hs (fun _ => Inert.not_isWordPart) (c :: r)
      have hdrop := dropWhile_append_inert hs (fun _ => Inert.not_isWordPart) (c :: r)
      exact ⟨congrArg (fun w => word (String.ofList w)) htake, fun _ => hdrop⟩
    · rw [if_neg hword, if_neg hword]
      by_cases hdigit : isDigit c = true
      · rw [if_pos hdigit, if_pos hdigit, ← List.cons_append, numberStart_append hs hcs]
        dsimp only
        rw [number_append hs]
        exact ⟨rfl, fun _ => rfl⟩
      · rw [if_neg hdigit, if_neg hdigit]
        by_cases hquote : (decide (c = '"') || decide (c = '\'')) = true
        · have hc : c = '"' ∨ c = '\'' := by simpa using hquote
          rw [if_pos hquote, if_pos hquote, closeQuote?_append hs
            (by rcases hc with rfl | rfl <;> decide) (by rcases hc with rfl | rfl <;> decide)]
          cases closeQuote? c r with
          | none => exact ⟨rfl, nofun⟩
          | some p =>
            dsimp only [Option.map_some]
            cases unescape? p.1 with
            | none => exact ⟨rfl, nofun⟩
            | some text => exact ⟨rfl, fun _ => rfl⟩
        · rw [if_neg hquote, if_neg hquote, ← List.cons_append, symbol?_append hs hcs]
          cases symbol? (c :: r) with
          | none => exact ⟨rfl, nofun⟩
          | some p => exact ⟨rfl, fun _ => rfl⟩

section

variable {c : Char} {r rest : List Char} {t : Token} (hbroken : t.isBroken = false)

include hbroken

theorem next_append_of_eq (h : next (c :: r) = (t, rest)) :
    next (c :: (r ++ s)) = (t, rest ++ s) := by
  obtain ⟨hsame, hafter⟩ := next_append hs (List.cons_ne_nil c r)
  rw [h] at hsame hafter
  exact Prod.ext hsame (hafter hbroken)

theorem next_of_append (h : next (c :: (r ++ s)) = (t, rest)) :
    next (c :: r) = (t, (next (c :: r)).2) ∧ rest = (next (c :: r)).2 ++ s := by
  obtain ⟨hsame, hafter⟩ := next_append hs (List.cons_ne_nil c r)
  rw [List.cons_append, h] at hsame hafter
  dsimp only at hsame hafter
  rw [← hsame] at hafter
  exact ⟨Prod.ext hsame.symm rfl, hafter hbroken⟩

end

end

theorem closeQuote?_suffix {quote : Char} {cs body rest : List Char}
    (h : closeQuote? quote cs = some (body, rest)) : rest <:+ cs := by
  fun_induction closeQuote? quote cs generalizing body with
  | case1 => cases h
  | case2 c cs ih =>
    obtain ⟨p, hp, hrest⟩ := Option.map_eq_some_iff.mp h
    cases hrest
    exact ((ih hp).trans (List.suffix_cons c cs)).trans (List.suffix_cons '\\' (c :: cs))
  | case3 =>
    cases h
    exact List.suffix_cons quote _
  | case4 c cs _ _ ih =>
    obtain ⟨p, hp, hrest⟩ := Option.map_eq_some_iff.mp h
    cases hrest
    exact (ih hp).trans (List.suffix_cons c cs)

theorem number_suffix (p : Part) (cs : List Char) : (number p cs).2.2 <:+ cs := by
  fun_induction number p cs with
  | case1 => exact List.suffix_rfl
  | case2 => exact List.suffix_rfl
  | case3 p c cs q _ taken last rest hrest ih =>
    rw [hrest] at ih
    exact ih.trans (List.suffix_cons c cs)

theorem numberStart_suffix {c : Char} (hc : isDigit c = true) (cs : List Char) :
    (number (numberStart (c :: cs)).1 (numberStart (c :: cs)).2).2.2 <:+ cs := by
  generalize htext : c :: cs = text
  fun_cases numberStart text
  case case7 =>
    subst htext
    have hnext : Part.next? .whole c cs = some .whole := by
      unfold Part.next?
      rw [if_pos hc, if_neg (by decide)]
    rw [number, hnext]
    exact number_suffix .whole cs
  all_goals
    cases htext
    exact (number_suffix _ _).trans (List.suffix_cons _ _)

theorem symbol?_suffix {c : Char} {cs rest : List Char} {t : Symbol}
    (h : symbol? (c :: cs) = some (t, rest)) : rest <:+ cs := by
  generalize htext : c :: cs = text at h
  revert h
  fun_cases symbol? text
  all_goals
    intro h
    cases h
  all_goals
    cases htext
    first
      | exact List.suffix_rfl
      | exact List.suffix_cons _ _

theorem next_suffix (c : Char) (cs : List Char) : (next (c :: cs)).2 <:+ cs := by
  rw [next]
  split_ifs with hword hdigit hquote
  · have hpart : isWordPart c = true := by rw [isWordPart, hword, Bool.true_or]
    rw [List.dropWhile_cons_of_pos hpart]
    exact List.dropWhile_suffix _
  · exact numberStart_suffix hdigit cs
  · cases hbody : closeQuote? c cs with
    | none => exact List.nil_suffix
    | some p =>
      dsimp only
      cases unescape? p.1 with
      | none => exact List.nil_suffix
      | some text => exact closeQuote?_suffix hbody
  · cases hsymbol : symbol? (c :: cs) with
    | none => exact List.nil_suffix
    | some p => exact symbol?_suffix hsymbol

/-! ## The tokens up to a mark -/

def pastBlanks (cs : List Char) : List Char := cs.dropWhile Text.isPlainBlank

theorem pastBlanks_suffix (cs : List Char) : pastBlanks cs <:+ cs := List.dropWhile_suffix _

theorem pastBlanks_append (cs r : List Char) :
    pastBlanks (cs ++ r) = if pastBlanks cs = [] then pastBlanks r else pastBlanks cs ++ r := by
  unfold pastBlanks
  rw [List.dropWhile_append]
  exact if_congr List.isEmpty_iff rfl rfl

theorem pastBlanks_append_brace (cs r : List Char) :
    pastBlanks (cs ++ '}' :: r) = pastBlanks cs ++ '}' :: r := by
  rw [pastBlanks_append]
  split
  next h =>
    rw [h]
    rfl
  · rfl

/-- The tokens are read, none of them broken, and then comes the mark or the end of the text. -/
inductive Lexes (closing : Closing) :
    Int → List Char → List Token → Option (Bool × List Char) → Prop
  | mark {cs : List Char} {after : Bool × List Char} :
      closing.ends? (pastBlanks cs) = some after → Lexes closing 0 cs [] (some after)
  | spent {depth : Int} {cs : List Char} : pastBlanks cs = [] → Lexes closing depth cs [] none
  | token {depth : Int} {cs r rest : List Char} {c : Char} {t : Token} {ts : List Token}
      {after : Option (Bool × List Char)} :
      pastBlanks cs = c :: r → (depth = 0 → closing.ends? (c :: r) = none) →
      next (c :: r) = (t, rest) → t.isBroken = false → Lexes closing (depth + t.weight) rest ts after →
      Lexes closing depth cs (t :: ts) after

theorem ends?_nil (closing : Closing) : closing.ends? [] = none := by cases closing <;> rfl

section

variable {closing : Closing} {fuel : Nat} {depth : Int} {cs : List Char}

theorem scanFrom_mark {after : Bool × List Char} (h : closing.ends? (pastBlanks cs) = some after) :
    scanFrom closing (fuel + 1) 0 cs = ([], some after) := by
  rw [pastBlanks] at h
  simp only [scanFrom, if_true, h]

theorem scanFrom_over (h : pastBlanks cs = []) :
    scanFrom closing (fuel + 1) depth cs = ([], none) := by
  rw [pastBlanks] at h
  simp [scanFrom, h, ends?_nil]

theorem scanFrom_inside {c : Char} {r : List Char} (h : pastBlanks cs = c :: r)
    (hends : depth = 0 → closing.ends? (c :: r) = none) :
    scanFrom closing (fuel + 1) depth cs =
      if (next (c :: r)).1.isBroken then ([(next (c :: r)).1], none)
      else ((next (c :: r)).1 ::
          (scanFrom closing fuel (depth + (next (c :: r)).1.weight) (next (c :: r)).2).1,
        (scanFrom closing fuel (depth + (next (c :: r)).1.weight) (next (c :: r)).2).2) := by
  have hnone : (if depth = 0 then closing.ends? (c :: r) else none) = none := by
    split_ifs with hdepth
    · exact hends hdepth
    · rfl
  rw [pastBlanks] at h
  rw [scanFrom, h]
  simp only [hnone, List.isEmpty_cons, Bool.false_eq_true, if_false]

theorem lexes_of_scanFrom {ts : List Token} {after : Bool × List Char}
    (h : scanFrom closing fuel depth cs = (ts, some after)) :
    Lexes closing depth cs ts (some after) := by
  induction fuel generalizing depth cs ts with
  | zero => cases h
  | succ fuel ih =>
    cases hcs : pastBlanks cs with
    | nil =>
      rw [scanFrom_over hcs] at h
      cases h
    | cons c r =>
      by_cases hends : depth = 0 → closing.ends? (c :: r) = none
      · rw [scanFrom_inside hcs hends] at h
        split_ifs at h with hbroken
        · cases h
        · obtain ⟨hts, hafter⟩ := Prod.mk.inj h
          subst hts
          exact .token hcs hends rfl (by simpa using hbroken) (ih (Prod.ext rfl hafter))
      · obtain ⟨hdepth, hfound⟩ := Classical.not_imp.mp hends
        obtain ⟨found, hfound⟩ := Option.ne_none_iff_exists'.mp hfound
        rw [← hcs] at hfound
        subst hdepth
        rw [scanFrom_mark hfound] at h
        cases h
        exact .mark hfound

theorem scanFrom_of_lexes {ts : List Token} {after : Option (Bool × List Char)}
    (h : Lexes closing depth cs ts after) (hfuel : cs.length < fuel) :
    scanFrom closing fuel depth cs = (ts, after) := by
  induction h generalizing fuel with
  | mark h =>
    obtain ⟨fuel, rfl⟩ : ∃ n, fuel = n + 1 := ⟨fuel - 1, by omega⟩
    exact scanFrom_mark h
  | spent h =>
    obtain ⟨fuel, rfl⟩ : ∃ n, fuel = n + 1 := ⟨fuel - 1, by omega⟩
    exact scanFrom_over h
  | @token depth cs r rest c t ts after hcs hends hnext hbroken _ ih =>
    obtain ⟨fuel, rfl⟩ : ∃ n, fuel = n + 1 := ⟨fuel - 1, by omega⟩
    have hpast := (pastBlanks_suffix cs).length_le
    have hrest := (next_suffix c r).length_le
    rw [hcs, List.length_cons] at hpast
    rw [hnext] at hrest
    rw [scanFrom_inside hcs hends, hnext, if_neg (by simp [hbroken]), ih (by dsimp only at hrest; omega)]

end

/-! ## The mark at the end of a block -/

theorem ends?_print {cs rest : List Char} {trims : Bool} :
    Closing.print.ends? cs = some (trims, rest) ↔
      cs = (if trims then ['-'] else []) ++ '}' :: '}' :: rest := by
  constructor
  · intro h
    unfold Closing.ends? at h
    split at h
    all_goals cases h
    all_goals first
      | rfl
      | contradiction
  · rintro rfl
    cases trims <;> rfl

theorem ends?_append {closing : Closing} {cs rest : List Char} {trims : Bool}
    (h : closing.ends? cs = some (trims, rest)) (s : List Char) :
    closing.ends? (cs ++ s) = some (trims, rest ++ s) := by
  unfold Closing.ends? at h
  split at h
  all_goals cases h
  all_goals rfl

theorem ends?_none_of_append {closing : Closing} {cs s : List Char}
    (h : closing.ends? (cs ++ s) = none) : closing.ends? cs = none := by
  cases hfound : closing.ends? cs with
  | none => rfl
  | some found =>
    rw [ends?_append hfound] at h
    cases h

theorem ends?_print_none {cs : List Char} (hlength : 3 ≤ cs.length) {s : List Char}
    (h : Closing.print.ends? (cs ++ s) ≠ none) : Closing.print.ends? cs ≠ none := by
  obtain ⟨⟨trims, rest⟩, h⟩ := Option.ne_none_iff_exists'.mp h
  rw [ends?_print] at h
  match cs, trims with
  | c :: d :: e :: cs, false =>
    rw [List.cons_append, List.cons_append] at h
    simp at h
    simp [Closing.ends?, h]
  | c :: d :: e :: cs, true =>
    simp at h
    simp [Closing.ends?, h]

theorem ends?_before_mark {body ws rest : List Char} {trims : Bool}
    (hbody : Text.occursIn ['}', '}'] body = false)
    (h : Closing.print.ends? (body ++ '}' :: '}' :: ws) = some (trims, rest)) :
    (body = [] ∧ trims = false ∧ rest = ws) ∨ (body = ['-'] ∧ trims = true ∧ rest = ws) ∨
      (body.getLast? = some '}' ∧ rest = '}' :: ws) := by
  rw [ends?_print] at h
  match body, trims with
  | [], false => simp_all
  | [], true => simp_all
  | [c], false => simp_all
  | [c], true => simp_all
  | [c, d], false => simp_all [Text.occursIn]
  | [c, d], true => simp_all [Text.occursIn]
  | c :: d :: e :: body, false => simp_all [Text.occursIn]
  | c :: d :: e :: body, true => simp_all [Text.occursIn]

theorem next_blank {c : Char} (h : Text.isBlank c = true) (r : List Char) :
    (next (c :: r)).1.isBroken = true := by
  have hinert : Inert c := .inr h
  have hquote : (decide (c = '"') || decide (c = '\'')) = false := by
    simp [hinert.ne (d := '"') (by decide), hinert.ne (d := '\'') (by decide)]
  have hsymbol : symbol? (c :: r) = none := by
    generalize htext : c :: r = text
    fun_cases symbol? text
    case case26 => rfl
    all_goals
      cases htext
      exact absurd h (by decide)
  rw [next, if_neg (by simp [hinert.not_isWordStart]), if_neg (by simp [hinert.not_isDigit]),
    if_neg (by simp [hquote]), hsymbol]
  rfl

section

variable {ws : List Char} (hws : ∀ c ∈ ws, Text.isBlank c = true)

include hws

theorem not_lexes_blanks {depth : Int} {ts : List Token} {after : Bool × List Char} :
    ¬ Lexes .print depth ws ts (some after) := by
  intro h
  have hblank : ∀ c r, pastBlanks ws = c :: r → Text.isBlank c = true := by
    intro c r hcs
    exact hws c ((pastBlanks_suffix ws).subset (by rw [hcs]; exact List.mem_cons_self))
  cases h with
  | mark hends =>
    rw [ends?_print] at hends
    cases htrims : after.1 with
    | true =>
      rw [htrims] at hends
      exact absurd (hblank '-' _ hends) (by decide)
    | false =>
      rw [htrims] at hends
      exact absurd (hblank '}' _ hends) (by decide)
  | @token _ _ r _ c _ _ _ hcs _ hnext hbroken _ =>
    have hbad := next_blank (hblank c r hcs) r
    rw [hnext, hbroken] at hbad
    cases hbad

theorem not_lexes_brace {depth : Int} {ts : List Token} {after : Bool × List Char} :
    ¬ Lexes .print depth ('}' :: ws) ts (some after) := by
  intro h
  have hpast : pastBlanks ('}' :: ws) = '}' :: ws := rfl
  cases h with
  | mark hends =>
    rw [ends?_print, hpast] at hends
    cases htrims : after.1 with
    | true =>
      rw [htrims] at hends
      cases hends
    | false =>
      rw [htrims] at hends
      have hmem : '}' ∈ ws := by
        rw [(List.cons.inj hends).2]
        exact List.mem_cons_self
      exact absurd (hws '}' hmem) (by decide)
  | token hcs _ hnext _ hrest =>
    rw [hpast] at hcs
    cases hcs
    cases hnext
    exact not_lexes_blanks hws hrest

end

theorem getLast?_of_suffix {tail cs : List Char} (h : tail <:+ cs) {c : Char}
    (hc : tail.getLast? = some c) : cs.getLast? = some c := by
  obtain ⟨front, rfl⟩ := h
  rw [List.getLast?_append, hc, Option.some_or]

theorem ends?_blanks {body us ws : List Char} {c : Char}
    (h : Closing.print.ends? (c :: body ++ '}' :: '}' :: us) = none) :
    Closing.print.ends? (c :: body ++ '}' :: '}' :: ws) = none := by
  by_contra hfound
  have hsplit (vs : List Char) :
      c :: body ++ '}' :: '}' :: vs = (c :: body ++ ['}', '}']) ++ vs := by simp
  rw [hsplit] at hfound h
  exact ends?_print_none (by simp) hfound (ends?_none_of_append h)

/-- A block without a mark inside ends at its last mark, unless a brace stands in front of that. -/
theorem Lexes.before_mark {body ws rest : List Char} {depth : Int} {ts : List Token} {trims : Bool}
    (hbody : Text.occursIn ['}', '}'] body = false) (hws : ∀ c ∈ ws, Text.isBlank c = true)
    (h : Lexes .print depth (body ++ '}' :: '}' :: ws) ts (some (trims, rest))) :
    (rest = ws ∧ (∀ us, (∀ c ∈ us, Text.isBlank c = true) →
        Lexes .print depth (body ++ '}' :: '}' :: us) ts (some (trims, us))) ∧
      (trims = false ∧ Lexes .print depth body ts none ∨ body.getLast? = some '-')) ∨
    (rest = '}' :: ws ∧ body.getLast? = some '}') := by
  generalize htext : body ++ '}' :: '}' :: ws = text at h
  generalize hafter : some (trims, rest) = after at h
  -- on the tokens read; from one to the next the body loses what the token takes of it
  induction h generalizing body with
  | mark hends =>
    cases hafter
    have hsuffix := pastBlanks_suffix body
    rw [← htext, pastBlanks_append_brace] at hends
    obtain ⟨hpast, rfl, rfl⟩ | ⟨hpast, rfl, rfl⟩ | ⟨hlast, rfl⟩ :=
      ends?_before_mark (Text.occursIn_of_suffix hsuffix hbody) hends
    · refine .inl ⟨rfl, fun us _ => .mark ?_, .inl ⟨rfl, .spent hpast⟩⟩
      rw [pastBlanks_append_brace, hpast]
      rfl
    · refine .inl ⟨rfl, fun us _ => .mark ?_, .inr (getLast?_of_suffix hsuffix (by rw [hpast]; rfl))⟩
      rw [pastBlanks_append_brace, hpast]
      rfl
    · exact .inr ⟨rfl, getLast?_of_suffix hsuffix hlast⟩
  | spent => cases hafter
  | @token depth cs r tail c t ts after hcs hends hnext hbroken hrest ih =>
    subst hafter
    rw [← htext, pastBlanks_append_brace] at hcs
    cases hpast : pastBlanks body with
    | nil =>
      -- the first brace of the mark would be a token, and the one left is no mark
      rw [hpast] at hcs
      cases hcs
      cases hnext
      exact absurd hrest (not_lexes_brace hws)
    | cons d inner =>
      rw [hpast, List.cons_append] at hcs
      cases hcs
      obtain ⟨hinner, htail⟩ := next_of_append (inert_closing hws) hbroken hnext
      have hsuffix : (next (c :: inner)).2 <:+ body :=
        ((next_suffix c inner).trans (List.suffix_cons c inner)).trans
          (hpast ▸ pastBlanks_suffix body)
      have hus (us : List Char) : pastBlanks (body ++ '}' :: '}' :: us) =
          c :: (inner ++ '}' :: '}' :: us) := by
        rw [pastBlanks_append_brace, hpast]
        rfl
      rcases ih (Text.occursIn_of_suffix hsuffix hbody) htail.symm rfl with
        ⟨rfl, hblanks, hlast⟩ | ⟨rfl, hlast⟩
      · refine .inl ⟨rfl, fun us hblank => ?_, ?_⟩
        · have htoken := next_append_of_eq (inert_closing hblank) hbroken hinner
          exact .token (hus us) (fun hdepth => ends?_blanks (hends hdepth)) htoken hbroken
            (hblanks us hblank)
        · refine hlast.imp (fun ⟨htrims, hspent⟩ => ⟨htrims, ?_⟩) (getLast?_of_suffix hsuffix)
          exact .token hpast (fun hdepth => ends?_none_of_append (hends hdepth)) hinner hbroken hspent
      · exact .inr ⟨rfl, getLast?_of_suffix hsuffix hlast⟩

theorem not_blank_of_token {c : Char} {r rest : List Char} {t : Token}
    (hnext : next (c :: r) = (t, rest)) (hbroken : t.isBroken = false) : Text.isBlank c ≠ true := by
  intro hc
  have hbad := next_blank hc r
  rw [hnext, hbroken] at hbad
  cases hbad

namespace Lexes

variable {closing : Closing} {depth : Int} {body ws : List Char} {ts : List Token}

theorem of_append_blanks (hws : ∀ c ∈ ws, Text.isBlank c = true)
    (h : Lexes closing depth (body ++ ws) ts none) : Lexes closing depth body ts none := by
  generalize htext : body ++ ws = text at h
  generalize hafter : none = after at h
  induction h generalizing body with
  | mark => cases hafter
  | spent hcs =>
    rw [← htext, pastBlanks_append] at hcs
    by_cases hpast : pastBlanks body = []
    · exact .spent hpast
    · rw [if_neg hpast] at hcs
      exact absurd (List.append_eq_nil_iff.mp hcs).1 hpast
  | @token depth cs r tail c t ts after hcs hends hnext hbroken hrest ih =>
    subst hafter
    rw [← htext, pastBlanks_append] at hcs
    cases hpast : pastBlanks body with
    | nil =>
      rw [if_pos hpast] at hcs
      have hmem : c ∈ pastBlanks ws := by
        rw [hcs]
        exact List.mem_cons_self
      exact absurd (hws c ((pastBlanks_suffix ws).subset hmem)) (not_blank_of_token hnext hbroken)
    | cons d inner =>
      rw [if_neg (by simp [hpast]), hpast, List.cons_append] at hcs
      cases hcs
      obtain ⟨hinner, htail⟩ := next_of_append (fun c hc => .inr (hws c hc)) hbroken hnext
      exact .token hpast (fun hdepth => ends?_none_of_append (hends hdepth)) hinner hbroken
        (ih htail.symm rfl)

theorem congr_blanks {cs ds : List Char} {after : Option (Bool × List Char)}
    (hpast : pastBlanks cs = pastBlanks ds) (h : Lexes closing depth cs ts after) :
    Lexes closing depth ds ts after := by
  cases h with
  | mark hends => exact .mark (hpast ▸ hends)
  | spent hcs => exact .spent (hpast ▸ hcs)
  | token hcs hends hnext hbroken hrest => exact .token (hpast ▸ hcs) hends hnext hbroken hrest

theorem of_blanks_append (hws : ∀ c ∈ ws, Text.isBlank c = true)
    (h : Lexes closing depth (ws ++ body) ts none) : Lexes closing depth body ts none := by
  induction ws with
  | nil => exact h
  | cons c ws ih =>
    apply ih (fun d hd => hws d (List.mem_cons_of_mem c hd))
    by_cases hc : Text.isPlainBlank c = true
    · exact h.congr_blanks (by simp [pastBlanks, hc])
    · have hpast : pastBlanks (c :: ws ++ body) = c :: (ws ++ body) := by simp [pastBlanks, hc]
      cases h with
      | spent hcs =>
        rw [hpast] at hcs
        cases hcs
      | token hcs _ hnext hbroken _ =>
        rw [hpast] at hcs
        cases hcs
        exact absurd (hws c List.mem_cons_self) (not_blank_of_token hnext hbroken)

end Lexes

theorem Lexes.mark_suffix {depth : Int} {cs rest : List Char} {ts : List Token} {trims : Bool}
    (h : Lexes .print depth cs ts (some (trims, rest))) : '}' :: '}' :: rest <:+ cs := by
  generalize hafter : some (trims, rest) = after at h
  induction h with
  | @mark cs _ hends =>
    cases hafter
    rw [ends?_print] at hends
    have hmark : '}' :: '}' :: rest <:+ pastBlanks cs := ⟨_, hends.symm⟩
    exact hmark.trans (pastBlanks_suffix cs)
  | spent => cases hafter
  | @token _ cs r tail c t _ _ hcs _ hnext _ _ ih =>
    have htail : tail <:+ r := by
      have h := next_suffix c r
      rwa [hnext] at h
    have hr : c :: r <:+ cs := hcs ▸ pastBlanks_suffix cs
    exact (((ih hafter).trans htail).trans (List.suffix_cons c r)).trans hr

end Pipework.Template.Token
