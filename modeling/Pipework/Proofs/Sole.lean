import Pipework.Proofs.Blocks
import Pipework.Template.Sole

/-!
# Templates that are one expression

A template that is nothing but one block with an expression gives the value of that expression, and
every other gives text. What is looked at for that is the text and not its tokens, so this holds of
blocks without signs next to their marks and without marks inside, and fails for others.
-/

namespace Pipework.Text

theorem dropFront?_eq_some {needle cs rest : List Char} :
    dropFront? needle cs = some rest ↔ cs = needle ++ rest := by
  rw [dropFront?]
  constructor
  · intro h
    split at h
    next hprefix =>
      obtain ⟨tail, rfl⟩ := List.isPrefixOf_iff_prefix.mp hprefix
      rw [List.drop_left] at h
      cases h
      rfl
    · cases h
  · rintro rfl
    rw [if_pos (List.isPrefixOf_iff_prefix.mpr (List.prefix_append _ _)), List.drop_left]

theorem dropBack?_eq_some {needle cs rest : List Char} :
    dropBack? needle cs = some rest ↔ cs = rest ++ needle := by
  rw [dropBack?, Option.map_eq_some_iff]
  constructor
  · rintro ⟨back, hback, rfl⟩
    rw [dropFront?_eq_some] at hback
    rw [← List.reverse_reverse cs, hback, List.reverse_append, List.reverse_reverse]
  · rintro rfl
    exact ⟨rest.reverse, by rw [dropFront?_eq_some, List.reverse_append], List.reverse_reverse rest⟩

end Pipework.Text

namespace Pipework.Template

def Expr.valueOn (fuel : Nat) (e : Expr) (data : Json) : Except Fault Value := do
  let (v, _) ← (eval fuel e).run (Page.start data [])
  .ok v

/-- Blanks at its ends apart, the text is read as one block with an expression, and nothing else. -/
def IsBlock (cs : List Char) (e : Expr) : Prop :=
  Statement.ofText (Text.trim cs) = .ok [.text "", .print e, .text ""]

def Unmarked (cs : List Char) : Prop :=
  Text.occursIn ['{', '{'] cs = false ∧ Text.occursIn ['}', '}'] cs = false

def Unsigned (cs : List Char) : Prop :=
  cs.head? ≠ some '-' ∧ cs.head? ≠ some '+' ∧ cs.getLast? ≠ some '-'

/-- Between its first and its last mark, the text has a brace in front of the last. -/
def Stray (cs : List Char) : Prop :=
  ∃ inner, Text.trim cs = '{' :: '{' :: inner ++ ['}', '}'] ∧ Unmarked inner ∧
    inner.getLast? = some '}'

theorem sole?_eq_some {cs x : List Char} :
    sole? cs = some x ↔ ∃ inner, Text.trim cs = '{' :: '{' :: inner ++ ['}', '}'] ∧
      Unmarked inner ∧ x = Text.trim inner := by
  constructor
  · intro h
    obtain ⟨back, hback, h⟩ := Option.bind_eq_some_iff.mp h
    obtain ⟨inner, hinner, h⟩ := Option.bind_eq_some_iff.mp h
    rw [Text.dropFront?_eq_some] at hback
    rw [Text.dropBack?_eq_some] at hinner
    split at h
    · cases h
    next hmarks =>
      cases h
      refine ⟨inner, by rw [hback, hinner]; rfl, ?_, rfl⟩
      simpa [Unmarked] using hmarks
  · rintro ⟨inner, htrim, ⟨hopens, hcloses⟩, rfl⟩
    have hfront : Text.dropFront? ['{', '{'] (Text.trim cs) = some (inner ++ ['}', '}']) := by
      rw [Text.dropFront?_eq_some, htrim]
      rfl
    have hback : Text.dropBack? ['}', '}'] (inner ++ ['}', '}']) = some inner := by
      rw [Text.dropBack?_eq_some]
    simp [sole?, hfront, hback, hopens, hcloses]

theorem hasBlock_of_trim {cs r : List Char} (h : Text.trim cs = '{' :: '{' :: r) :
    hasBlock cs = true := by
  obtain ⟨lead, trail, hcs, -, -⟩ := Text.trim_split cs
  rw [hasBlock, Bool.or_eq_true]
  left
  by_contra hnone
  have hsuffix : Text.trim cs ++ trail <:+ cs := ⟨lead, hcs.symm⟩
  have hopens := Text.occursIn_of_suffix hsuffix (by simpa using hnone)
  rw [h] at hopens
  cases hopens

theorem isBlock_iff {cs : List Char} {e : Expr} :
    IsBlock cs e ↔ ∃ inner ts trims, Text.trim cs = '{' :: '{' :: inner ++ ['}', '}'] ∧
      Token.Lexes .print 0 (Segment.dropMarkSign inner ++ ['}', '}']) ts (some (trims, [])) ∧
      Expr.ofTokens Expr.depthLimit ts = .ok e := by
  rw [IsBlock, Statement.ofText_eq_block]
  constructor
  · rintro ⟨ts, hscan, he⟩
    obtain ⟨inner, trims, htrim, hlexes⟩ := Segment.lexes_of_scan
      (fun c => Text.not_blank_of_head?_trim) (fun c => Text.not_blank_of_getLast?_trim) hscan
    exact ⟨inner, ts, trims, htrim, hlexes, he⟩
  · rintro ⟨inner, ts, trims, htrim, hlexes, he⟩
    exact ⟨ts, by rw [htrim]; exact Segment.scan_of_lexes hlexes, he⟩

theorem ofText_trim {inner : List Char} {ts : List Token} {trims : Bool} (hsigns : Unsigned inner)
    (hmarks : Unmarked inner)
    (h : Token.Lexes .print 0 (Segment.dropMarkSign inner ++ ['}', '}']) ts (some (trims, []))) :
    Expr.ofText (Text.trim inner) = Expr.ofTokens Expr.depthLimit ts := by
  obtain ⟨hminus, hplus, hlast⟩ := hsigns
  rw [Segment.dropMarkSign_of_unsigned ⟨hminus, hplus⟩] at h
  have hspent : Token.Lexes .print 0 inner ts none := by
    rcases h.before_mark hmarks.2 (List.forall_mem_nil _) with ⟨-, -, ⟨-, hspent⟩ | hdash⟩ | ⟨hrest, -⟩
    · exact hspent
    · exact absurd hdash hlast
    · cases hrest
  obtain ⟨lead, trail, hinner, hlead, htrail⟩ := Text.trim_split inner
  rw [hinner] at hspent
  have htrim := (hspent.of_blanks_append hlead).of_append_blanks htrail
  rw [Expr.ofText, Token.ofExpression, Token.scan,
    Token.scanFrom_of_lexes htrim (Nat.lt_succ_self _)]

theorem evalText_of_ofText {cs : List Char} {e : Expr} (h : Expr.ofText cs = .ok e) (data : Json) :
    evalText cs data = e.valueOn (fuelFor cs) data := by
  rw [evalText, h]
  rfl

/-- A text that is read by the engine and taken for an expression by its marks is one block, or it
has a brace in front of its last mark. -/
theorem isBlock_of_sole? {cs x : List Char} {ss : List Statement} (h : sole? cs = some x)
    (hread : Statement.ofText cs = .ok ss) : (∃ e, IsBlock cs e) ∨ Stray cs := by
  obtain ⟨inner, htrim, hmarks, -⟩ := sole?_eq_some.mp h
  obtain ⟨lead, trail, hcs, hlead, htrail⟩ := Text.trim_split cs
  have hbrace : ∀ c ∈ lead, c ≠ '{' := by
    rintro c hc rfl
    exact absurd (hlead '{' hc) (by decide)
  have hlast : (lead ++ Text.trim cs).getLast? = some '}' := by
    have hsuffix : ['}', '}'] <:+ lead ++ Text.trim cs := by
      rw [htrim]
      exact ⟨lead ++ '{' :: '{' :: inner, by simp⟩
    exact Token.getLast?_of_suffix hsuffix rfl
  obtain ⟨ws, hchomp, hws⟩ := Text.chompEnding_append hlast (by decide) htrail
  have hscan : Segment.scan cs = Segment.scanFrom (cs.length + 1) false
      (lead ++ '{' :: '{' :: (inner ++ '}' :: '}' :: ws)) := by
    rw [Segment.scan]
    congr 1
    rw [hcs, ← List.append_assoc, hchomp, htrim]
    simp
  obtain ⟨fuel, hall⟩ := Statement.readAll_of_ofText hread
  rw [hscan] at hall
  cases htokens : Token.scan .print (Segment.dropMarkSign (inner ++ '}' :: '}' :: ws)) with
  | mk ts after =>
    cases after with
    | none =>
      rw [Segment.scanFrom_unclosed hbrace htokens] at hall
      obtain ⟨e, he⟩ := Statement.ofTokens_of_readAll hall
      have hwhole := Expr.not_faulty_of_ofTokens he
      simp [Reads.faulty, Token.isBroken] at hwhole
    | some found =>
      obtain ⟨trims, rest⟩ := found
      rw [Segment.scanFrom_closed hbrace htokens] at hall
      obtain ⟨e, he⟩ := Statement.ofTokens_of_readAll hall
      have hlexes := Token.lexes_of_scanFrom htokens
      rw [Segment.dropMarkSign_append] at hlexes
      have hsuffix := Segment.dropMarkSign_suffix inner
      rcases hlexes.before_mark (Text.occursIn_of_suffix hsuffix hmarks.2) hws with
        ⟨-, hblanks, -⟩ | ⟨-, hbrace⟩
      · left
        exact ⟨e, isBlock_iff.mpr ⟨inner, ts, trims, htrim, hblanks [] (List.forall_mem_nil _), he⟩⟩
      · right
        exact ⟨inner, htrim, hmarks, Token.getLast?_of_suffix hsuffix hbrace⟩

/-- A template that is one block, with no sign next to its marks and no mark inside, gives the value
of the very expression in the block. One that is read by the engine and is no block gives its text,
unless it has a brace in front of its last mark. -/
theorem value_of_block (template : String) (data : Json) :
    (∀ e, IsBlock template.toList e →
      ∃ inner, Text.trim template.toList = '{' :: '{' :: inner ++ ['}', '}'] ∧
        (Unsigned inner → Unmarked inner →
          render template data =
            (do (← e.valueOn (fuelFor (Text.trim inner)) data).toJson) ∧
          test template data =
            (e.valueOn (fuelFor (Text.trim inner)) data).map Value.isTrue)) ∧
    (∀ ss, Statement.ofText template.toList = .ok ss → hasBlock template.toList = true →
      (∀ e, ¬ IsBlock template.toList e) → ¬ Stray template.toList →
      render template data = (renderText template.toList data).map .str) := by
  constructor
  · intro e he
    obtain ⟨inner, ts, trims, htrim, hlexes, htokens⟩ := isBlock_iff.mp he
    refine ⟨inner, htrim, fun hsigns hmarks => ?_⟩
    have hsole := sole?_eq_some.mpr ⟨inner, htrim, hmarks, rfl⟩
    have hvalue := evalText_of_ofText ((ofText_trim hsigns hmarks hlexes).trans htokens) data
    constructor
    · rw [render, hasBlock_of_trim htrim, hsole]
      simp only [Bool.not_true, Bool.false_eq_true, if_false, hvalue]
    · rw [test, hsole]
      simp only [Option.getD_some, hvalue]
  · intro ss hread hblock hnone hstray
    have hsole : sole? template.toList = none := by
      cases h : sole? template.toList with
      | none => rfl
      | some x =>
        rcases isBlock_of_sole? h hread with ⟨e, he⟩ | hs
        · exact absurd he (hnone e)
        · exact absurd hs hstray
    rw [render, hblock, hsole]
    rfl

def fiveData : Json := .obj [("x", .int 5)]

-- {{ x }}
def blockOfX : String := "\x7b\x7b x \x7d\x7d"

-- x = {{ x }}
def textAndBlock : String := "x = \x7b\x7b x \x7d\x7d"

-- {{- x }}
def dashedBlock : String := "\x7b\x7b- x \x7d\x7d"

-- {{ x }}}
def bracedBlock : String := "\x7b\x7b x \x7d\x7d\x7d"

theorem values_fiveData :
    render blockOfX fiveData = .ok (.int 5) ∧ test blockOfX fiveData = .ok true ∧
      render textAndBlock fiveData = (renderText textAndBlock.toList fiveData).map .str := by
  have hblock : IsBlock blockOfX.toList (.name "x") := by
    unfold IsBlock
    cbv
  obtain ⟨inner, htrim, hvalue⟩ := (value_of_block blockOfX fiveData).1 _ hblock
  have hinner : inner = [' ', 'x', ' '] := by
    have htext : Text.trim blockOfX.toList = '{' :: '{' :: [' ', 'x', ' '] ++ ['}', '}'] := by
      decide +kernel
    rw [htext] at htrim
    cases List.append_cancel_right htrim
    rfl
  subst hinner
  obtain ⟨hrender, htest⟩ := hvalue (by unfold Unsigned; decide) (by unfold Unmarked; decide)
  have hread : Statement.ofText textAndBlock.toList =
      .ok [.text "x = ", .print (.name "x"), .text ""] := by cbv
  have htrimmed : Text.trim textAndBlock.toList = textAndBlock.toList := by decide +kernel
  refine ⟨hrender.trans (by decide +kernel), htest.trans (by decide +kernel),
    (value_of_block textAndBlock fiveData).2 _ hread (by decide +kernel) (fun e he => ?_) ?_⟩
  · rw [IsBlock, htrimmed, hread] at he
    simp at he
  · rintro ⟨inner, hbraces, -⟩
    rw [htrimmed] at hbraces
    have hfirst : textAndBlock.toList.head? = some 'x' := by decide +kernel
    rw [hbraces] at hfirst
    cases hfirst

/-- A dash that belongs to the mark is taken for a sign of the expression, and a brace behind the
mark for one inside. -/
theorem misread_fiveData :
    (IsBlock dashedBlock.toList (.name "x") ∧
      (do (← (Expr.name "x").valueOn (fuelFor ['x']) fiveData).toJson) = .ok (.int 5) ∧
      render dashedBlock fiveData = .ok (.int (-5))) ∧
    (∀ e, ¬ IsBlock bracedBlock.toList e) ∧ renderText bracedBlock.toList fiveData = .ok "5\x7d" ∧
      render bracedBlock fiveData = .error .badSyntax := by
  refine ⟨⟨?_, by decide +kernel, by decide +kernel⟩, fun e he => ?_, by decide +kernel,
    by decide +kernel⟩
  · unfold IsBlock
    cbv
  · have hread : Statement.ofText (Text.trim bracedBlock.toList) =
        .ok [.text "", .print (.name "x"), .text "\x7d"] := by cbv
    rw [IsBlock, hread] at he
    simp at he

end Pipework.Template
