import Pipework.Proofs.Parsing
import Pipework.Proofs.Tokens
import Pipework.Template.Statement

/-!
# Texts that are one block

A text with nothing but one block in it has two marks at its ends, and between them the tokens of an
expression. Such texts, and no others, are read as one statement that prints.
-/

namespace Pipework.Text

theorem trimEnd_split (cs : List Char) :
    ∃ trail, cs = trimEnd cs ++ trail ∧ ∀ c ∈ trail, isBlank c = true := by
  refine ⟨(cs.reverse.takeWhile isBlank).reverse, ?_, ?_⟩
  · rw [trimEnd, ← List.reverse_append, List.takeWhile_append_dropWhile, List.reverse_reverse]
  · intro c hc
    exact List.mem_takeWhile_imp (List.mem_reverse.mp hc)

theorem not_blank_of_getLast?_trimEnd {cs : List Char} {c : Char}
    (h : (trimEnd cs).getLast? = some c) : isBlank c = false := by
  rw [trimEnd, List.getLast?_reverse] at h
  have hhead := List.head?_dropWhile_not isBlank cs.reverse
  rwa [h] at hhead

theorem trim_split (cs : List Char) :
    ∃ lead trail, cs = lead ++ (trim cs ++ trail) ∧ (∀ c ∈ lead, isBlank c = true) ∧
      ∀ c ∈ trail, isBlank c = true := by
  obtain ⟨trail, htrail, hblank⟩ := trimEnd_split (trimStart cs)
  refine ⟨cs.takeWhile isBlank, trail, ?_, fun c hc => List.mem_takeWhile_imp hc, hblank⟩
  rw [trim, ← htrail, trimStart, List.takeWhile_append_dropWhile]

theorem not_blank_of_head?_trim {cs : List Char} {c : Char} (h : (trim cs).head? = some c) :
    isBlank c = false := by
  obtain ⟨trail, htrail, -⟩ := trimEnd_split (trimStart cs)
  have hstart : (trimStart cs).head? = some c := by
    rw [htrail, List.head?_append, ← trim, h, Option.some_or]
  have hhead := List.head?_dropWhile_not isBlank cs
  rw [trimStart] at hstart
  rwa [hstart] at hhead

theorem not_blank_of_getLast?_trim {cs : List Char} {c : Char} (h : (trim cs).getLast? = some c) :
    isBlank c = false :=
  not_blank_of_getLast?_trimEnd h

section

variable {front : List Char} {c : Char}

theorem dropLast_append_blank (hlast : front.getLast? = some c) (hc : isBlank c = false)
    {trail : List Char} {d : Char} (hd : isBlank d = true)
    (h : (front ++ trail).getLast? = some d) :
    (front ++ trail).dropLast = front ++ trail.dropLast := by
  apply List.dropLast_append_of_ne_nil
  rintro rfl
  rw [List.append_nil, hlast] at h
  cases h
  rw [hc] at hd
  cases hd

theorem chompReturn_append (hlast : front.getLast? = some c) (hc : isBlank c = false)
    {trail : List Char} (htrail : ∀ c ∈ trail, isBlank c = true) :
    ∃ ws, chompReturn (front ++ trail) = front ++ ws ∧ ∀ c ∈ ws, isBlank c = true := by
  unfold chompReturn
  split
  next h =>
    refine ⟨trail.dropLast, dropLast_append_blank hlast hc (by decide) h, ?_⟩
    exact fun c hc => htrail c (List.dropLast_subset trail hc)
  · exact ⟨trail, rfl, htrail⟩

theorem chompEnding_append (hlast : front.getLast? = some c) (hc : isBlank c = false)
    {trail : List Char} (htrail : ∀ c ∈ trail, isBlank c = true) :
    ∃ ws, chompEnding (front ++ trail) = front ++ ws ∧ ∀ c ∈ ws, isBlank c = true := by
  unfold chompEnding
  split
  next h =>
    rw [dropLast_append_blank hlast hc (by decide) h]
    exact chompReturn_append hlast hc fun c hc => htrail c (List.dropLast_subset trail hc)
  · exact chompReturn_append hlast hc htrail

theorem chompEnding_of_getLast? (hlast : front.getLast? = some c) (hc : isBlank c = false) :
    chompEnding front = front := by
  have hne {d : Char} (hd : isBlank d = true) : c ≠ d := by
    rintro rfl
    rw [hc] at hd
    cases hd
  have hline := hne (d := '\n') (by decide)
  have hreturn := hne (d := '\r') (by decide)
  simp [chompEnding, chompReturn, hlast, hline, hreturn]

end

end Pipework.Text

namespace Pipework.Template

namespace Segment

theorem opening_print {before : List Char} (h : ∀ c ∈ before, c ≠ '{') (r : List Char) :
    opening (before ++ '{' :: '{' :: r) = (before, some (.print, r)) := by
  induction before with
  | nil => rfl
  | cons c before ih =>
    rw [List.cons_append, opening, ih fun d hd => h d (List.mem_cons_of_mem c hd)]
    all_goals exact fun _ hc => absurd hc (h c List.mem_cons_self)

theorem eq_of_opening {cs before : List Char} {found : Option (Opening × List Char)}
    (h : opening cs = (before, found)) :
    (found = none → cs = before) ∧ ∀ r, found = some (.print, r) → cs = before ++ '{' :: '{' :: r := by
  fun_induction opening cs generalizing before with
  | case1 r =>
    cases h
    exact ⟨nofun, fun r h => by cases h; rfl⟩
  | case2 r =>
    cases h
    exact ⟨nofun, nofun⟩
  | case3 r =>
    cases h
    exact ⟨nofun, nofun⟩
  | case4 c r _ _ _ front found' hr ih =>
    cases h
    obtain ⟨hnone, hprint⟩ := ih hr
    refine ⟨fun hf => by rw [hnone hf], fun r hf => by rw [hprint r hf, List.cons_append]⟩
  | case5 =>
    cases h
    exact ⟨fun _ => rfl, nofun⟩

theorem scanFrom_ne_print {fuel : Nat} {trims : Bool} {cs : List Char} {ts : List Token}
    {rest : List Segment} : scanFrom fuel trims cs ≠ .print ts :: rest := by
  intro h
  cases fuel with
  | zero => cases h
  | succ fuel =>
    rw [scanFrom] at h
    dsimp only at h
    split at h
    · cases h
    · cases h

theorem dropMarkSign_suffix (cs : List Char) : dropMarkSign cs <:+ cs := by
  fun_cases dropMarkSign cs
  · exact List.suffix_cons _ _
  · exact List.suffix_cons _ _
  · exact List.suffix_rfl

theorem dropMarkSign_append (cs ws : List Char) :
    dropMarkSign (cs ++ '}' :: '}' :: ws) = dropMarkSign cs ++ '}' :: '}' :: ws := by
  fun_cases dropMarkSign cs with
  | case1 => rfl
  | case2 => rfl
  | case3 _ hminus hplus =>
    cases cs with
    | nil => rfl
    | cons c cs =>
      rw [List.cons_append, dropMarkSign]
      · exact fun r hr => hminus cs (by rw [(List.cons.inj hr).1])
      · exact fun r hr => hplus cs (by rw [(List.cons.inj hr).1])

theorem dropMarkSign_of_unsigned {cs : List Char} (h : cs.head? ≠ some '-' ∧ cs.head? ≠ some '+') :
    dropMarkSign cs = cs := by
  fun_cases dropMarkSign cs
  · exact absurd rfl h.1
  · exact absurd rfl h.2
  · rfl

section

variable {lead : List Char} (hlead : ∀ c ∈ lead, c ≠ '{') {fuel : Nat} {r : List Char}
  {ts : List Token}

include hlead

theorem scanFrom_unclosed (h : Token.scan .print (dropMarkSign r) = (ts, none)) :
    scanFrom (fuel + 1) false (lead ++ '{' :: '{' :: r) =
      [.text (if startsWithDash r then Text.trimEnd lead else lead),
        .print (ts ++ [.broken .badSyntax])] := by
  rw [scanFrom]
  simp only [Bool.false_eq_true, if_false, opening_print hlead, h]

theorem scanFrom_closed {trims : Bool} {rest : List Char}
    (h : Token.scan .print (dropMarkSign r) = (ts, some (trims, rest))) :
    scanFrom (fuel + 1) false (lead ++ '{' :: '{' :: r) =
      .text (if startsWithDash r then Text.trimEnd lead else lead) :: .print ts ::
        scanFrom fuel trims rest := by
  rw [scanFrom]
  simp only [Bool.false_eq_true, if_false, opening_print hlead, h]

end

theorem scanFrom_ne_nil (fuel : Nat) (trims : Bool) (cs : List Char) :
    scanFrom (fuel + 1) trims cs ≠ [] := by
  rw [scanFrom]
  dsimp only
  split
  · exact List.cons_ne_nil _ _
  · exact List.cons_ne_nil _ _

theorem scanFrom_other {fuel : Nat} {trims : Bool} {cs before r : List Char} {mark : Opening}
    (h : opening (if trims then Text.trimStart cs else cs) = (before, some (mark, r)))
    (hmark : mark ≠ .print) :
    ∃ front rest, scanFrom (fuel + 2) trims cs = .text front :: rest ∧ rest ≠ [] ∧
      ∀ ts more, rest ≠ .print ts :: more := by
  rw [scanFrom]
  simp only [h]
  refine ⟨_, _, rfl, ?_⟩
  cases mark with
  | print => exact absurd rfl hmark
  | comment =>
    dsimp only
    split
    · exact ⟨List.cons_ne_nil _ _, nofun⟩
    · exact ⟨scanFrom_ne_nil _ _ _, fun ts more => scanFrom_ne_print⟩
  | statement =>
    dsimp only
    split
    · split
      · exact ⟨List.cons_ne_nil _ _, nofun⟩
      · exact ⟨List.cons_ne_nil _ _, nofun⟩
    · split
      · exact ⟨List.cons_ne_nil _ _, nofun⟩
      · exact ⟨List.cons_ne_nil _ _, nofun⟩

theorem blank_of_scanFrom {fuel : Nat} {trims : Bool} {cs : List Char}
    (h : scanFrom (fuel + 2) trims cs = [.text []]) : ∀ c ∈ cs, Text.isBlank c = true := by
  cases hopening : opening (if trims then Text.trimStart cs else cs) with
  | mk before found =>
    cases found with
    | none =>
      have hnil := (eq_of_opening hopening).1 rfl
      rw [scanFrom] at h
      simp only [hopening] at h
      cases h
      split at hnil
      · intro c hc
        exact List.dropWhile_eq_nil_iff.mp hnil c hc
      · rw [hnil]
        exact List.forall_mem_nil _
    | some p =>
      obtain ⟨mark, r⟩ := p
      by_cases hmark : mark = .print
      · rw [scanFrom] at h
        simp only [hopening, hmark] at h
        obtain ⟨-, hrest⟩ := List.cons.inj h
        split at hrest <;> cases hrest
      · obtain ⟨front, rest, hscan, hrest, -⟩ := @scanFrom_other fuel trims _ _ _ _ hopening hmark
        rw [hscan] at h
        exact absurd (List.cons.inj h).2 hrest

theorem scan_of_lexes {inner : List Char} {ts : List Token} {trims : Bool}
    (h : Token.Lexes .print 0 (dropMarkSign inner ++ ['}', '}']) ts (some (trims, []))) :
    scan ('{' :: '{' :: inner ++ ['}', '}']) = [.text [], .print ts, .text []] := by
  have hlast : ('{' :: '{' :: inner ++ ['}', '}']).getLast? = some '}' :=
    Token.getLast?_of_suffix (List.suffix_append _ _) rfl
  have htokens : Token.scan .print (dropMarkSign (inner ++ ['}', '}'])) = (ts, some (trims, [])) := by
    rw [dropMarkSign_append, Token.scan]
    exact Token.scanFrom_of_lexes h (Nat.lt_succ_self _)
  have hempty : (if startsWithDash (inner ++ ['}', '}']) then Text.trimEnd [] else []) = [] := by
    split <;> rfl
  have hlength : ('{' :: '{' :: inner ++ ['}', '}']).length = inner.length + 3 + 1 := by simp
  have hclosed := @scanFrom_closed [] nofun (inner.length + 3 + 1) _ _ _ _ htokens
  rw [List.nil_append, hempty] at hclosed
  rw [scan, Text.chompEnding_of_getLast? hlast (by decide), hlength]
  refine hclosed.trans ?_
  cases trims <;> rfl

theorem blank_of_text_nil {before : List Char} {dash : Bool}
    (h : (if dash then Text.trimEnd before else before) = []) :
    ∀ c ∈ before, Text.isBlank c = true := by
  split at h
  · obtain ⟨trail, htrail, hblank⟩ := Text.trimEnd_split before
    rw [h, List.nil_append] at htrail
    rwa [htrail]
  · rw [h]
    nofun

theorem block_of_scanFrom {fuel : Nat} {cs : List Char} {ts : List Token} {more : List Segment}
    (h : scanFrom (fuel + 2) false cs = .text [] :: .print ts :: .text [] :: more) :
    ∃ before r trims rest, opening cs = (before, some (.print, r)) ∧
      (if startsWithDash r then Text.trimEnd before else before) = [] ∧
      Token.scan .print (dropMarkSign r) = (ts, some (trims, rest)) ∧
      scanFrom (fuel + 1) trims rest = .text [] :: more := by
  cases hopening : opening cs with
  | mk before found =>
    cases found with
    | none =>
      rw [scanFrom] at h
      simp only [Bool.false_eq_true, if_false, hopening] at h
      cases h
    | some p =>
      obtain ⟨mark, r⟩ := p
      by_cases hmark : mark = .print
      · subst hmark
        rw [scanFrom] at h
        simp only [Bool.false_eq_true, if_false, hopening] at h
        obtain ⟨hbefore, hblock⟩ := List.cons.inj h
        split at hblock
        · cases hblock
        next us trims rest hscan =>
          obtain ⟨hts, hrest⟩ := List.cons.inj hblock
          cases hts
          exact ⟨before, r, trims, rest, rfl, Segment.text.inj hbefore, hscan, hrest⟩
      · obtain ⟨front, rest, hscan, -, hrest⟩ :=
          @scanFrom_other fuel false _ _ _ _ hopening hmark
        rw [hscan] at h
        exact absurd (List.cons.inj h).2 (hrest _ _)

theorem lexes_of_scan {cs : List Char} {ts : List Token}
    (hhead : ∀ c, cs.head? = some c → Text.isBlank c = false)
    (hlast : ∀ c, cs.getLast? = some c → Text.isBlank c = false)
    (h : scan cs = [.text [], .print ts, .text []]) :
    ∃ inner trims, cs = '{' :: '{' :: inner ++ ['}', '}'] ∧
      Token.Lexes .print 0 (dropMarkSign inner ++ ['}', '}']) ts (some (trims, [])) := by
  cases hend : cs.getLast? with
  | none =>
    rw [List.getLast?_eq_none_iff.mp hend] at h
    cases h
  | some last =>
    obtain ⟨n, hn⟩ : ∃ n, cs.length = n + 1 := by
      cases cs with
      | nil => cases hend
      | cons c cs => exact ⟨cs.length, rfl⟩
    rw [scan, Text.chompEnding_of_getLast? hend (hlast last hend), hn] at h
    obtain ⟨before, r, trims, rest, hopening, hbefore, hscan, hrest⟩ := block_of_scanFrom h
    have hcs : cs = before ++ '{' :: '{' :: r := (eq_of_opening hopening).2 r rfl
    have hnil : before = [] := by
      cases before with
      | nil => rfl
      | cons c before =>
        have hc : Text.isBlank c = true := blank_of_text_nil hbefore c List.mem_cons_self
        rw [hhead c (by rw [hcs]; rfl)] at hc
        cases hc
    rw [hnil, List.nil_append] at hcs
    obtain ⟨inner, hinner⟩ :=
      (Token.lexes_of_scanFrom hscan).mark_suffix.trans (dropMarkSign_suffix r)
    have hafter : rest = [] := by
      obtain ⟨m, rfl⟩ : ∃ m, n = m + 1 := ⟨r.length, by rw [hcs] at hn; simpa using hn.symm⟩
      cases hc : rest.getLast? with
      | none => exact List.getLast?_eq_none_iff.mp hc
      | some c =>
        have hsuffix : rest <:+ cs := by
          refine ⟨'{' :: '{' :: inner ++ ['}', '}'], ?_⟩
          rw [hcs, ← hinner]
          simp
        have hblank := blank_of_scanFrom hrest c (List.mem_of_getLast? hc)
        rw [hlast c (Token.getLast?_of_suffix hsuffix hc)] at hblank
        cases hblank
    subst hafter
    have hlexes := Token.lexes_of_scanFrom hscan
    rw [← hinner, dropMarkSign_append] at hlexes
    exact ⟨inner, trims, by rw [hcs, ← hinner]; rfl, hlexes⟩

end Segment

namespace Statement

def isWordless : Statement → Bool
  | text _ | print _ => true
  | _ => false

def Worded (x : Except Fault (Statement × List Segment)) : Prop :=
  ∀ s rest, x = .ok (s, rest) → s.isWordless = false

theorem worded_error (f : Fault) : Worded (.error f) := by
  intro s rest h
  cases h

theorem worded_ok {s : Statement} (h : s.isWordless = false) (rest : List Segment) :
    Worded (.ok (s, rest)) := by
  intro t after ht
  cases ht
  exact h

theorem worded_bind {α : Type} {x : Except Fault α}
    {f : α → Except Fault (Statement × List Segment)} (h : ∀ a, Worded (f a)) :
    Worded (x >>= f) := by
  intro s rest hs
  obtain ⟨a, -, ha⟩ := ok_of_bind hs
  exact h a s rest ha

theorem worded_readChoose (fuel room : Nat) (ts : List Token) (rest : List Segment) :
    Worded (readChoose fuel room ts rest) := by
  cases fuel with
  | zero =>
    rw [readChoose]
    exact worded_error _
  | succ fuel =>
    rw [readChoose]
    refine worded_bind fun condition => worded_bind fun b => ?_
    split
    · exact worded_bind fun other => worded_ok rfl _
    · refine worded_bind fun _ => ?_
      split
      · exact worded_bind fun no => worded_ok rfl _
      · exact worded_ok rfl _

theorem worded_readStatement (fuel room : Nat) (w : String) (ts : List Token)
    (rest : List Segment) : Worded (readStatement fuel room w ts rest) := by
  unfold readStatement
  split
  case h_2 => exact worded_readChoose _ _ _ _
  all_goals
    repeat' first
      | exact worded_error _
      | exact worded_ok rfl _
      | refine worded_bind fun _ => ?_
      | split

theorem readAll_cases {fuel : Nat} {segments : List Segment} {ss : List Statement}
    (h : readAll fuel segments = .ok ss) :
    (segments = [] ∧ ss = []) ∨
    (∃ inner cs rest tail, segments = .text cs :: rest ∧ ss = text (String.ofList cs) :: tail ∧
      readAll inner rest = .ok tail) ∨
    (∃ inner ts rest e tail, segments = .print ts :: rest ∧ ss = print e :: tail ∧
      Expr.ofTokens Expr.depthLimit ts = .ok e ∧ readAll inner rest = .ok tail) ∨
    ∃ s tail, ss = s :: tail ∧ s.isWordless = false := by
  unfold readAll at h
  split at h
  · cases h
  · cases h
    exact .inl ⟨rfl, rfl⟩
  · cases h
  · obtain ⟨tail, htail, h⟩ := ok_of_bind h
    cases h
    exact .inr (.inl ⟨_, _, _, _, rfl, rfl, htail⟩)
  · obtain ⟨e, he, h⟩ := ok_of_bind h
    obtain ⟨tail, htail, h⟩ := ok_of_bind h
    cases h
    exact .inr (.inr (.inl ⟨_, _, _, _, _, rfl, rfl, he, htail⟩))
  · obtain ⟨⟨w, us⟩, -, h⟩ := ok_of_bind h
    obtain ⟨⟨s, after⟩, hs, h⟩ := ok_of_bind h
    obtain ⟨tail, -, h⟩ := ok_of_bind h
    cases h
    exact .inr (.inr (.inr ⟨s, tail, rfl, worded_readStatement _ _ _ _ _ s after hs⟩))

theorem readAll_of_ofText {cs : List Char} {ss : List Statement} (h : ofText cs = .ok ss) :
    ∃ fuel, readAll fuel (Segment.scan cs) = .ok ss := by
  obtain ⟨found, hfound, h⟩ := ok_of_bind h
  dsimp only at h
  split at h
  · cases h
  · cases h
    exact ⟨_, hfound⟩

theorem readAll_empty {fuel : Nat} {segments : List Segment} {ss : List Statement}
    (h : readAll fuel segments = .ok (text "" :: ss)) :
    ∃ inner rest, segments = .text [] :: rest ∧ readAll inner rest = .ok ss := by
  rcases readAll_cases h with ⟨-, hss⟩ | ⟨inner, cs, rest, tail, rfl, hss, hrest⟩ |
    ⟨_, _, _, _, _, -, hss, -⟩ | ⟨s, tail, hss, hs⟩
  · cases hss
  · obtain ⟨hcs, rfl⟩ := List.cons.inj hss
    have hnil : cs = [] := by
      have htext := congrArg String.toList (Statement.text.inj hcs).symm
      rwa [String.toList_ofList] at htext
    exact ⟨inner, rest, by rw [hnil], hrest⟩
  · cases hss
  · cases hss
    cases hs

theorem readAll_print {fuel : Nat} {segments : List Segment} {e : Expr} {ss : List Statement}
    (h : readAll fuel segments = .ok (print e :: ss)) :
    ∃ inner ts rest, segments = .print ts :: rest ∧ Expr.ofTokens Expr.depthLimit ts = .ok e ∧
      readAll inner rest = .ok ss := by
  rcases readAll_cases h with ⟨-, hss⟩ | ⟨_, _, _, _, -, hss, -⟩ |
    ⟨inner, ts, rest, x, tail, rfl, hss, hx, hrest⟩ | ⟨s, tail, hss, hs⟩
  · cases hss
  · cases hss
  · cases hss
    exact ⟨inner, ts, rest, rfl, hx, hrest⟩
  · cases hss
    cases hs

theorem readAll_nil {fuel : Nat} {segments : List Segment} (h : readAll fuel segments = .ok []) :
    segments = [] := by
  rcases readAll_cases h with ⟨hnil, -⟩ | ⟨_, _, _, _, -, hss, -⟩ | ⟨_, _, _, _, _, -, hss, -⟩ |
    ⟨_, _, hss, -⟩
  · exact hnil
  all_goals cases hss

theorem ofTokens_of_readAll {fuel : Nat} {cs : List Char} {ts : List Token} {rest : List Segment}
    {ss : List Statement} (h : readAll fuel (.text cs :: .print ts :: rest) = .ok ss) :
    ∃ e, Expr.ofTokens Expr.depthLimit ts = .ok e := by
  cases fuel with
  | zero => cases h
  | succ fuel =>
    rw [readAll] at h
    obtain ⟨tail, htail, -⟩ := ok_of_bind h
    cases fuel with
    | zero => cases htail
    | succ fuel =>
      rw [readAll] at htail
      obtain ⟨e, he, -⟩ := ok_of_bind htail
      exact ⟨e, he⟩

theorem ofText_eq_block {cs : List Char} {e : Expr} :
    ofText cs = .ok [text "", print e, text ""] ↔
      ∃ ts, Segment.scan cs = [.text [], .print ts, .text []] ∧
        Expr.ofTokens Expr.depthLimit ts = .ok e := by
  constructor
  · intro h
    obtain ⟨_, hall⟩ := readAll_of_ofText h
    obtain ⟨_, block, hscan, hblock⟩ := readAll_empty hall
    obtain ⟨_, ts, after, rfl, he, hafter⟩ := readAll_print hblock
    obtain ⟨_, rest, rfl, hrest⟩ := readAll_empty hafter
    rw [readAll_nil hrest] at hscan
    exact ⟨ts, hscan, he⟩
  · rintro ⟨ts, hscan, he⟩
    have hread : readAll (4 * 3 + 4) [.text [], .print ts, .text []] =
        .ok [text "", print e, text ""] := by
      simp only [readAll, he]
      rfl
    rw [ofText, hscan]
    simp only [List.length_cons, List.length_nil]
    rw [hread]
    rfl

end Statement

end Pipework.Template
