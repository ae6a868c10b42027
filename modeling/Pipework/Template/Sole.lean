import Pipework.Template.Render

/-! The evaluator for templates. A template that is one expression between a pair of braces gives
the value of that expression; any other gives text. -/

namespace Pipework.Template

def sole? (template : List Char) : Option (List Char) := do
  let inner ← Text.dropFront? ['{', '{'] (Text.trim template)
  let inner ← Text.dropBack? ['}', '}'] inner
  if Text.occursIn ['{', '{'] inner || Text.occursIn ['}', '}'] inner then none
  else some (Text.trim inner)

def hasBlock (template : List Char) : Bool :=
  Text.occursIn ['{', '{'] template || Text.occursIn ['{', '%'] template

def render (template : String) (data : Json) : Except Fault Json :=
  let cs := template.toList
  if !hasBlock cs then .ok (.str template)
  else match sole? cs with
    | some expression => do (← evalText expression data).toJson
    | none => (renderText cs data).map .str

def test (expression : String) (data : Json) : Except Fault Bool :=
  let cs := expression.toList
  (evalText ((sole? cs).getD (Text.trim cs)) data).map Value.isTrue

end Pipework.Template

namespace Pipework

def Evaluator.templates : Evaluator where
  render template data := (Template.render template data).mapError Template.Fault.toError
  test expression data := (Template.test expression data).mapError Template.Fault.toError

end Pipework
