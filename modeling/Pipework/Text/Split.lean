import Pipework.Text.Blank

/-! Texts cut at a separator or at blanks. -/

namespace Pipework.Text

def pieces (sep : List Char) : Nat → List Char → List Char → List (List Char)
  | 0, piece, cs => [piece.reverse ++ cs]
  | _ + 1, piece, [] => [piece.reverse]
  | fuel + 1, piece, c :: cs =>
    match dropFront? sep (c :: cs) with
    | some rest => piece.reverse :: pieces sep fuel [] rest
    | none => pieces sep fuel (c :: piece) cs

def splitBy (sep cs : List Char) : List (List Char) :=
  if sep.isEmpty then [] :: cs.map (fun c => [c]) ++ [[]]
  else pieces sep cs.length [] cs

def words (cs : List Char) : List (List Char) :=
  (cs.splitBy fun a b => isBlank a == isBlank b).filter fun w =>
    w.any fun c => !isBlank c

def rejoin (sep : List Char) (limit : Nat) (ps : List (List Char)) : List (List Char) :=
  if limit = 0 then []
  else if ps.length ≤ limit then ps
  else ps.take (limit - 1) ++ [(ps.drop (limit - 1)).intersperse sep |>.flatten]

def splitAtBlanks : Nat → List Char → List Char → List (List Char)
  | 0, _, _ => []
  | _, piece, [] => [piece.reverse]
  | 1, piece, cs => [piece.reverse ++ cs]
  | limit + 2, piece, c :: cs =>
    if isBlank c then piece.reverse :: splitAtBlanks (limit + 1) [] cs
    else splitAtBlanks (limit + 2) (c :: piece) cs
termination_by structural _ _ cs => cs

end Pipework.Text
