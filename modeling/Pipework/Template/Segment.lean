import Pipework.Template.Token
import Pipework.Text.Lines

/-! The segments of a template: text between blocks, blocks that print an expression and blocks with
a statement. A dash at either mark of a block trims the blanks next to it, comments leave nothing,
and what stands between `raw` and `endraw` is text. -/

namespace Pipework.Template

inductive Segment where
  | text (cs : List Char)
  | print (tokens : List Token)
  | statement (tokens : List Token)
  | broken (f : Fault)

namespace Segment

inductive Opening where
  | print
  | statement
  | comment
  deriving DecidableEq, Repr

def opening : List Char → List Char × Option (Opening × List Char)
  | '{' :: '{' :: r => ([], some (.print, r))
  | '{' :: '%' :: r => ([], some (.statement, r))
  | '{' :: '#' :: r => ([], some (.comment, r))
  | c :: r =>
    let (before, found) := opening r
    (c :: before, found)
  | [] => ([], none)

def startsWithDash : List Char → Bool
  | '-' :: _ => true
  | _ => false

def dropMarkSign : List Char → List Char
  | '-' :: r => r
  | '+' :: r => r
  | r => r

def wordStatement? (word : String) (cs : List Char) : Option (Bool × List Char) :=
  match Text.dropFront? word.toList (cs.dropWhile Text.isPlainBlank) with
  | none => none
  | some r => Token.Closing.statement.ends? (r.dropWhile Text.isPlainBlank)

def endRaw? : List Char → Option (List Char × Bool × Bool × List Char)
  | [] => none
  | c :: r =>
    let closed := match c, r with
      | '{', '%' :: inner =>
        (wordStatement? "endraw" (dropMarkSign inner)).map fun (after, rest) =>
          (startsWithDash inner, after, rest)
      | _, _ => none
    match closed with
    | some (trims, after, rest) => some ([], trims, after, rest)
    | none => (endRaw? r).map fun (body, more) => (c :: body, more)

def endComment? : Option Char → List Char → Option (Bool × List Char)
  | last, '#' :: '}' :: r => some (last == some '-', r)
  | _, c :: r => endComment? (some c) r
  | _, [] => none

/-- Segments from here on; the flag says whether blanks at the front are trimmed. Each block takes
at least two characters, so the length of the text is enough fuel. -/
def scanFrom : Nat → Bool → List Char → List Segment
  | 0, _, _ => []
  | fuel + 1, trims, cs =>
    let cs := if trims then Text.trimStart cs else cs
    match opening cs with
    | (before, none) => [.text before]
    | (before, some (mark, r)) =>
      let before := if startsWithDash r then Text.trimEnd before else before
      .text before :: match mark with
        | .comment => match endComment? none r with
          | none => [.broken .badSyntax]
          | some (trims, rest) => scanFrom fuel trims rest
        | .print => match Token.scan .print (dropMarkSign r) with
          | (ts, none) => [.print (ts ++ [.broken .badSyntax])]
          | (ts, some (trims, rest)) => .print ts :: scanFrom fuel trims rest
        | .statement => match wordStatement? "raw" (dropMarkSign r) with
          | some (trims, body) => match endRaw? body with
            | none => [.broken .badSyntax]
            | some (inner, trimsEnd, after, rest) =>
              let inner := if trims then Text.trimStart inner else inner
              .text (if trimsEnd then Text.trimEnd inner else inner) :: scanFrom fuel after rest
          | none => match Token.scan .statement (dropMarkSign r) with
            | (ts, none) => [.statement (ts ++ [.broken .badSyntax])]
            | (ts, some (trims, rest)) => .statement ts :: scanFrom fuel trims rest

def scan (cs : List Char) : List Segment := scanFrom (cs.length + 1) false (Text.chompEnding cs)

end Segment

end Pipework.Template
