import Mathlib.Data.List.Basic
import Pipework.Template.Expr

/-!
# Broken tokens are never read

A reader takes tokens from the front and passes no broken one. So what has been read to the end as
an expression has no broken token in it.
-/

namespace Pipework.Template

theorem ok_of_bind {α β : Type} {x : Except Fault α} {f : α → Except Fault β} {b : β}
    (h : x >>= f = .ok b) : ∃ a, x = .ok a ∧ f a = .ok b := by
  cases x with
  | error e => cases h
  | ok a => exact ⟨a, rfl, h⟩

namespace Reads

def faulty (ts : List Token) : Bool := ts.any Token.isBroken

@[simp] theorem faulty_word (w : String) (ts : List Token) : faulty (.word w :: ts) = faulty ts := rfl
@[simp] theorem faulty_str (s : String) (ts : List Token) : faulty (.str s :: ts) = faulty ts := rfl
@[simp] theorem faulty_int (n : Nat) (ts : List Token) : faulty (.int n :: ts) = faulty ts := rfl
@[simp] theorem faulty_float (x : Float) (ts : List Token) : faulty (.float x :: ts) = faulty ts := rfl
@[simp] theorem faulty_sym (s : Symbol) (ts : List Token) : faulty (.sym s :: ts) = faulty ts := rfl

def Keeps {α : Type} (read : Reads α) : Prop :=
  ∀ ⦃ts rest a⦄, read ts = .ok (a, rest) → faulty rest = faulty ts

theorem faulty_symbol {s : Symbol} {ts rest : List Token} (h : symbol s ts = .ok rest) :
    faulty rest = faulty ts := by
  unfold symbol at h
  split at h
  · split at h
    · cases h
      rfl
    · cases h
  · cases h

theorem faulty_keyword {w : String} {ts rest : List Token} (h : word w ts = .ok rest) :
    faulty rest = faulty ts := by
  unfold word at h
  split at h
  · split at h
    · cases h
      rfl
    · cases h
  · cases h

theorem keeps_anyWord : Keeps anyWord := by
  intro ts rest w h
  unfold anyWord at h
  split at h
  · cases h
    rfl
  · cases h

theorem faulty_drop {s : Symbol} {ts : List Token} (h : startsWith s ts = true) :
    faulty (ts.drop 1) = faulty ts := by
  unfold startsWith at h
  split at h
  · rfl
  · cases h

theorem faulty_dropWord {w : String} {ts : List Token} (h : startsWithWord w ts = true) :
    faulty (ts.drop 1) = faulty ts := by
  unfold startsWithWord at h
  split at h
  · rfl
  · cases h

theorem not_faulty_of_finish {ts : List Token} (h : finish ts = .ok ()) : faulty ts = false := by
  unfold finish at h
  split at h
  · rfl
  · cases h

end Reads

namespace Expr

open Reads

variable {inner primary tighter simple : Reads Expr}

theorem faulty_adjacent (s : String) (ts : List Token) :
    faulty (adjacent s ts).2 = faulty ts := by
  fun_induction adjacent s ts with
  | case1 s t ts ih => exact ih
  | case2 => rfl

theorem faulty_comparisonAt {ts rest : List Token} {op : BinaryOp}
    (h : comparisonAt ts = .ok (some (op, rest))) : faulty rest = faulty ts := by
  unfold comparisonAt at h
  split at h
  case h_2 ts =>
    cases hword : word "in" ts with
    | error f =>
      rw [hword] at h
      cases h
    | ok us =>
      rw [hword] at h
      cases h
      rw [faulty_keyword hword, faulty_word]
  case h_9 => cases h
  all_goals
    cases h
    rfl

section

variable (hinner : Keeps inner)

include hinner

theorem keeps_readItems (closing : Symbol) (fuel : Nat) :
    Keeps (readItems inner closing fuel) := by
  induction fuel with
  | zero => exact nofun
  | succ fuel ih =>
    intro ts rest es h
    rw [readItems] at h
    split at h
    next hclose =>
      cases h
      exact faulty_drop hclose
    · obtain ⟨⟨e, us⟩, he, h⟩ := ok_of_bind h
      dsimp only at h
      split at h
      next hclose =>
        cases h
        rw [faulty_drop hclose, hinner he]
      · obtain ⟨vs, hcomma, h⟩ := ok_of_bind h
        obtain ⟨⟨more, ws⟩, hmore, h⟩ := ok_of_bind h
        cases h
        rw [ih hmore, faulty_symbol hcomma, hinner he]

theorem keeps_readFields (fuel : Nat) : Keeps (readFields inner fuel) := by
  induction fuel with
  | zero => exact nofun
  | succ fuel ih =>
    intro ts rest fields h
    rw [readFields] at h
    split at h
    next hclose =>
      cases h
      exact faulty_drop hclose
    · obtain ⟨⟨key, us⟩, hkey, h⟩ := ok_of_bind h
      obtain ⟨vs, hcolon, h⟩ := ok_of_bind h
      obtain ⟨⟨e, ws⟩, he, h⟩ := ok_of_bind h
      have hpair : faulty ws = faulty ts := by
        rw [hinner he, faulty_symbol hcolon, hinner hkey]
      dsimp only at h
      split at h
      next hclose =>
        cases h
        rw [faulty_drop hclose, hpair]
      · obtain ⟨xs, hcomma, h⟩ := ok_of_bind h
        obtain ⟨⟨more, ys⟩, hmore, h⟩ := ok_of_bind h
        cases h
        rw [ih hmore, faulty_symbol hcomma, hpair]

theorem faulty_of_map {α : Type} {f : Expr × List Token → α × List Token} {ts rest : List Token}
    {a : α} (h : (inner ts).map f = .ok (a, rest)) (hf : ∀ p, (f p).2 = p.2) :
    faulty rest = faulty ts := by
  cases he : inner ts with
  | error f =>
    rw [he] at h
    cases h
  | ok p =>
    rw [he] at h
    have hrest : (f p).2 = rest := congrArg Prod.snd (Except.ok.inj h)
    rw [← hrest, hf, hinner he]

theorem keeps_readArg (named : Bool) : Keeps (readArg inner named) := by
  intro ts rest arg h
  unfold readArg at h
  split at h
  · rw [faulty_of_map hinner h fun _ => rfl, faulty_sym]
  · rw [faulty_of_map hinner h fun _ => rfl, faulty_sym]
  · obtain ⟨⟨e, us⟩, he, h⟩ := ok_of_bind h
    dsimp only at h
    split at h
    · obtain ⟨⟨x, vs⟩, hx, h⟩ := ok_of_bind h
      cases h
      rw [hinner hx, ← hinner he, faulty_sym]
    · split at h
      · cases h
      · cases h
        exact hinner he

theorem keeps_readArgs (fuel : Nat) (named : Bool) : Keeps (readArgs inner fuel named) := by
  induction fuel generalizing named with
  | zero => exact nofun
  | succ fuel ih =>
    intro ts rest args h
    rw [readArgs] at h
    split at h
    next hclose =>
      cases h
      exact faulty_drop hclose
    · obtain ⟨⟨arg, us⟩, harg, h⟩ := ok_of_bind h
      dsimp only at h
      split at h
      next hclose =>
        cases h
        rw [faulty_drop hclose, keeps_readArg hinner named harg]
      · obtain ⟨vs, hcomma, h⟩ := ok_of_bind h
        obtain ⟨⟨more, ws⟩, hmore, h⟩ := ok_of_bind h
        cases h
        rw [ih _ hmore, faulty_symbol hcomma, keeps_readArg hinner named harg]

theorem keeps_readCall : Keeps (readCall inner) := by
  intro ts rest args h
  unfold readCall at h
  split at h
  · obtain ⟨⟨args, us⟩, hargs, h⟩ := ok_of_bind h
    cases h
    rw [keeps_readArgs hinner _ _ hargs, faulty_sym]
  · cases h
    rfl

theorem keeps_readPart : Keeps (readPart inner) := by
  intro ts rest e h
  unfold readPart at h
  split at h
  · cases h
    rfl
  · exact hinner h

theorem keeps_readSubscript (e : Expr) : Keeps (readSubscript inner e) := by
  intro ts rest x h
  unfold readSubscript at h
  split at h
  · cases h
  · obtain ⟨⟨start, us⟩, hstart, h⟩ := ok_of_bind h
    rw [← keeps_readPart hinner hstart]
    dsimp only at h
    split at h
    · obtain ⟨⟨stop, vs⟩, hstop, h⟩ := ok_of_bind h
      dsimp only at h
      have hend {ws : List Token} {step : Expr}
          (h : (do
            let ws ← symbol .squareClose ws
            Except.ok (slice e start stop step, ws)) = Except.ok (x, rest)) :
          faulty rest = faulty ws := by
        obtain ⟨xs, hclose, h⟩ := ok_of_bind h
        cases h
        exact faulty_symbol hclose
      split at h
      · obtain ⟨⟨step, ws⟩, hstep, h⟩ := ok_of_bind h
        rw [hend h, keeps_readPart hinner hstep, faulty_sym, ← keeps_readPart hinner hstop, faulty_sym]
      · rw [hend h, keeps_readPart hinner hstop, faulty_sym]
    · obtain ⟨vs, hclose, h⟩ := ok_of_bind h
      cases h
      exact faulty_symbol hclose

theorem keeps_readPostfix (fuel : Nat) (e : Expr) : Keeps (readPostfix inner fuel e) := by
  induction fuel generalizing e with
  | zero => exact nofun
  | succ fuel ih =>
    intro ts rest x h
    rw [readPostfix.eq_def] at h
    dsimp only at h
    split at h
    · split at h
      · rw [ih _ h, faulty_sym, faulty_int]
      · cases h
    · obtain ⟨⟨w, us⟩, hw, h⟩ := ok_of_bind h
      rw [ih _ h, keeps_anyWord hw, faulty_sym]
    · obtain ⟨⟨y, us⟩, hy, h⟩ := ok_of_bind h
      rw [ih _ h, keeps_readSubscript hinner _ hy, faulty_sym]
    · obtain ⟨⟨args, us⟩, hargs, h⟩ := ok_of_bind h
      cases args with
      | some args => rw [ih _ h, keeps_readCall hinner hargs]
      | none =>
        cases h
        exact keeps_readCall hinner hargs

theorem keeps_readPrimary : Keeps (readPrimary inner) := by
  intro ts rest e h
  unfold readPrimary at h
  split at h
  · cases h
    rfl
  · cases h
    rw [faulty_adjacent, faulty_str]
  · cases h
    rfl
  · cases h
    rfl
  · split at h
    next hclose =>
      cases h
      rw [faulty_drop hclose, faulty_sym]
    · obtain ⟨⟨x, us⟩, hx, h⟩ := ok_of_bind h
      rw [faulty_sym, ← hinner hx]
      dsimp only at h
      split at h
      · obtain ⟨⟨more, vs⟩, hmore, h⟩ := ok_of_bind h
        cases h
        rw [keeps_readItems hinner _ _ hmore, faulty_sym]
      · obtain ⟨vs, hclose, h⟩ := ok_of_bind h
        cases h
        exact faulty_symbol hclose
  · obtain ⟨⟨es, us⟩, hes, h⟩ := ok_of_bind h
    cases h
    rw [keeps_readItems hinner _ _ hes, faulty_sym]
  · obtain ⟨⟨fields, us⟩, hfields, h⟩ := ok_of_bind h
    cases h
    rw [keeps_readFields hinner _ hfields, faulty_sym]
  · cases h

end

theorem keeps_readSigned (hprimary : Keeps primary) : Keeps (readSigned primary) := by
  intro ts
  fun_induction readSigned primary ts with
  | case1 ts ih =>
    intro rest e h
    obtain ⟨⟨x, us⟩, hx, h⟩ := ok_of_bind h
    cases h
    rw [ih hx, faulty_sym]
  | case2 ts => exact fun _ _ h => hprimary h

theorem keeps_readTest (hinner : Keeps inner) (hprimary : Keeps primary) :
    Keeps (readTest inner primary) := by
  intro ts rest found h
  obtain ⟨⟨w, us⟩, hw, h⟩ := ok_of_bind h
  have hname : faulty us = faulty ts := by
    rw [keeps_anyWord hw]
    split
    next hnot => exact faulty_dropWord hnot
    · rfl
  obtain ⟨⟨args, vs⟩, hargs, h⟩ := ok_of_bind h
  rw [← hname, ← keeps_readCall hinner hargs]
  cases args with
  | some args =>
    cases h
    rfl
  | none =>
    dsimp only at h
    split at h
    · obtain ⟨⟨e, ws⟩, he, h⟩ := ok_of_bind h
      obtain ⟨⟨x, xs⟩, hx, h⟩ := ok_of_bind h
      cases h
      rw [keeps_readPostfix hinner _ _ hx, keeps_readSigned hprimary he]
    · cases h
      rfl

theorem keeps_readFilters (hinner : Keeps inner) (hprimary : Keeps primary) (fuel : Nat)
    (e : Expr) : Keeps (readFilters inner primary fuel e) := by
  induction fuel generalizing e with
  | zero => exact nofun
  | succ fuel ih =>
    intro ts rest x h
    rw [readFilters.eq_def] at h
    dsimp only at h
    split at h
    · obtain ⟨⟨w, us⟩, hw, h⟩ := ok_of_bind h
      obtain ⟨⟨args, vs⟩, hargs, h⟩ := ok_of_bind h
      rw [ih _ h, keeps_readCall hinner hargs, keeps_anyWord hw, faulty_sym]
    · obtain ⟨⟨⟨w, args, opposite⟩, us⟩, htest, h⟩ := ok_of_bind h
      rw [ih _ h, keeps_readTest hinner hprimary htest, faulty_word]
    · cases h
      rfl

theorem keeps_readOperand (hinner : Keeps inner) (hprimary : Keeps primary) :
    Keeps (readOperand inner primary) := by
  intro ts rest x h
  obtain ⟨⟨e, us⟩, he, h⟩ := ok_of_bind h
  obtain ⟨⟨y, vs⟩, hy, h⟩ := ok_of_bind h
  rw [keeps_readFilters hinner hprimary _ _ h, keeps_readPostfix hinner _ _ hy,
    keeps_readSigned hprimary he]

theorem faulty_of_operator {level : Level} {t : Token} (ts : List Token)
    (h : (level.operator? t).isSome) : faulty (t :: ts) = faulty ts := by
  cases t with
  | broken f => cases level <;> cases h
  | _ => rfl

theorem keeps_readRest (htighter : Keeps tighter) (level : Level) (fuel : Nat) (left : Expr) :
    Keeps (readRest tighter level fuel left) := by
  induction fuel generalizing left with
  | zero => exact nofun
  | succ fuel ih =>
    intro ts rest x h
    rw [readRest] at h
    split at h
    · cases h
      rfl
    next make hmake =>
      obtain ⟨t, ht, hop⟩ := Option.bind_eq_some_iff.mp hmake
      obtain ⟨vs, rfl⟩ := List.head?_eq_some_iff.mp ht
      obtain ⟨⟨right, us⟩, hright, h⟩ := ok_of_bind h
      rw [ih _ h, htighter hright, faulty_of_operator vs (by rw [hop]; rfl)]
      rfl

theorem keeps_readLevel (level : Level) (htighter : Keeps tighter) :
    Keeps (readLevel level tighter) := by
  intro ts rest x h
  obtain ⟨⟨e, us⟩, he, h⟩ := ok_of_bind h
  rw [keeps_readRest htighter _ _ _ h, htighter he]

theorem keeps_readComparisons (htighter : Keeps tighter) (fuel : Nat) :
    Keeps (readComparisons tighter fuel) := by
  induction fuel with
  | zero => exact nofun
  | succ fuel ih =>
    intro ts rest found h
    obtain ⟨at?, hat, h⟩ := ok_of_bind h
    cases at? with
    | none =>
      cases h
      rfl
    | some p =>
      obtain ⟨⟨e, us⟩, he, h⟩ := ok_of_bind h
      obtain ⟨⟨more, vs⟩, hmore, h⟩ := ok_of_bind h
      cases h
      rw [ih hmore, htighter he, faulty_comparisonAt hat]

theorem keeps_readCompared (htighter : Keeps tighter) : Keeps (readCompared tighter) := by
  intro ts rest x h
  obtain ⟨⟨e, us⟩, he, h⟩ := ok_of_bind h
  obtain ⟨⟨more, vs⟩, hmore, h⟩ := ok_of_bind h
  cases h
  rw [keeps_readComparisons htighter _ hmore, htighter he]

theorem keeps_readNegated (htighter : Keeps tighter) : Keeps (readNegated tighter) := by
  intro ts
  fun_induction readNegated tighter ts with
  | case1 ts ih =>
    intro rest e h
    obtain ⟨⟨x, us⟩, hx, h⟩ := ok_of_bind h
    cases h
    rw [ih hx, faulty_word]
  | case2 ts => exact fun _ _ h => htighter h

theorem keeps_readSimple (hinner : Keeps inner) (hprimary : Keeps primary) :
    Keeps (readSimple inner primary) :=
  keeps_readLevel _ <| keeps_readLevel _ <| keeps_readNegated <| keeps_readCompared <|
    keeps_readLevel _ <| keeps_readLevel _ <| keeps_readLevel _ <| keeps_readLevel _ <|
      keeps_readOperand hinner hprimary

theorem keeps_readChoices (hsimple : Keeps simple) (fuel : Nat) (e : Expr) :
    Keeps (readChoices simple fuel e) := by
  induction fuel generalizing e with
  | zero => exact nofun
  | succ fuel ih =>
    intro ts rest x h
    rw [readChoices.eq_def] at h
    dsimp only at h
    split at h
    · obtain ⟨⟨condition, us⟩, hcondition, h⟩ := ok_of_bind h
      rw [faulty_word, ← hsimple hcondition]
      dsimp only at h
      split at h
      · obtain ⟨⟨other, vs⟩, hother, h⟩ := ok_of_bind h
        obtain ⟨⟨more, ws⟩, hmore, h⟩ := ok_of_bind h
        cases h
        rw [ih _ hmore, hsimple hother, faulty_word]
      · exact ih _ h
    · cases h
      rfl

theorem keeps_readFirst (room : Nat) : Keeps (readFirst room) := by
  induction room using Nat.strongRecOn with
  | _ room ih =>
    match room with
    | 0 | 1 => exact nofun
    | room + 2 =>
      intro ts rest x h
      have hinner := ih (room + 1) (by omega)
      have hsimple := keeps_readSimple hinner (keeps_readPrimary (ih room (by omega)))
      obtain ⟨⟨e, us⟩, he, h⟩ := ok_of_bind h
      rw [keeps_readChoices hsimple _ _ h, hsimple he]

theorem not_faulty_of_ofTokens {room : Nat} {ts : List Token} {e : Expr}
    (h : ofTokens room ts = .ok e) : faulty ts = false := by
  obtain ⟨⟨x, rest⟩, hx, h⟩ := ok_of_bind h
  obtain ⟨⟨⟩, hfinish, -⟩ := ok_of_bind h
  rw [← keeps_readFirst room hx]
  exact not_faulty_of_finish hfinish

end Expr

end Pipework.Template
