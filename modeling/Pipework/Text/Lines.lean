/-! Lines and words of a text. A line ends at a line feed, a carriage return before it belongs to
the ending, and a text that ends in a line feed has no empty line after it. -/

namespace Pipework.Text

def splitOn (sep : Char) : List Char → List (List Char)
  | [] => [[]]
  | c :: cs => match splitOn sep cs with
    | [] => [[c]]
    | piece :: rest => if c = sep then [] :: piece :: rest else (c :: piece) :: rest

def chompReturn (line : List Char) : List Char :=
  match line.getLast? with
  | some '\r' => line.dropLast
  | _ => line

def chompEnding (cs : List Char) : List Char :=
  chompReturn <| match cs.getLast? with
    | some '\n' => cs.dropLast
    | _ => cs

/-- The lines of a text. The last piece counts only if it is not empty, and keeps its carriage
return, since no line feed follows it. -/
def lines (s : String) : List String :=
  let pieces := splitOn '\n' s.toList
  let ended := pieces.dropLast.map fun p => String.ofList (chompReturn p)
  match pieces.getLast? with
  | some (c :: cs) => ended ++ [String.ofList (c :: cs)]
  | _ => ended

def join (sep : String) : List String → String
  | [] => ""
  | [s] => s
  | s :: t :: rest => s ++ sep ++ join sep (t :: rest)

theorem splitOn_ne_nil (sep : Char) (cs : List Char) : splitOn sep cs ≠ [] := by
  cases cs with
  | nil => simp [splitOn]
  | cons c cs =>
    simp only [splitOn]
    split
    · simp
    · split <;> simp

end Pipework.Text
