import Pipework.Json.Print
import Pipework.Text.Blank

/-! Evaluators of templates, and mappings: values whose strings are templates. -/

namespace Pipework

inductive NodeError where
  | fatal (text : String)
  | template (text : String)
  | unsupported (text : String)
  | io (text : String)
  deriving DecidableEq, Repr

def NodeError.message : NodeError → String
  | fatal text => "fatal node error: " ++ text
  | template text => "template error: " ++ text
  | unsupported text => "unsupported: " ++ text
  | io text => "io error: " ++ text

structure Evaluator where
  render : String → Json → Except NodeError Json
  test : String → Json → Except NodeError Bool

namespace Evaluator

mutual
def resolve (ev : Evaluator) (data : Json) : Json → Except NodeError Json
  | .str template => ev.render template data
  | .arr items => match resolveItems ev data items with
    | .error e => .error e
    | .ok items => .ok (.arr items)
  | .obj fields => match resolveFields ev data fields with
    | .error e => .error e
    | .ok fields => .ok (.obj fields)
  | .null => .ok .null
  | .bool b => .ok (.bool b)
  | .int n => .ok (.int n)
  | .float bits => .ok (.float bits)
termination_by structural j => j

def resolveItems (ev : Evaluator) (data : Json) : List Json → Except NodeError (List Json)
  | [] => .ok []
  | x :: xs => match resolve ev data x with
    | .error e => .error e
    | .ok y => match resolveItems ev data xs with
      | .error e => .error e
      | .ok ys => .ok (y :: ys)
termination_by structural items => items

def resolveFields (ev : Evaluator) (data : Json) :
    List (String × Json) → Except NodeError (List (String × Json))
  | [] => .ok []
  | (key, x) :: xs => match resolve ev data x with
    | .error e => .error e
    | .ok y => match resolveFields ev data xs with
      | .error e => .error e
      | .ok ys => .ok ((key, y) :: ys)
termination_by structural fields => fields
end

/-- The node that a jump template names; a blank name is no jump. -/
def resolveGoto (ev : Evaluator) (template : Option String) (data : Json) :
    Except NodeError (Option String) :=
  match template with
  | none => .ok none
  | some template => match ev.render template data with
    | .error e => .error e
    | .ok .null => .ok none
    | .ok (.str s) =>
      let target := Text.trimString s
      .ok (if target.isEmpty then none else some target)
    | .ok j => .ok (some (Json.compact j))

end Evaluator

end Pipework
