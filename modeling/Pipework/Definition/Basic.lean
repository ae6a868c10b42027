import Pipework.Prompt

/-! Pipes as they are written, before anything about them has been checked. -/

namespace Pipework

structure ProcessSpec where
  name : String
  args : Json
  deriving DecidableEq, Repr

structure NodeDef (π : Type) where
  name : Option String
  label : Option String
  process : Option ProcessSpec
  request : Option Json
  prompts : List Prompt
  model : Option String
  options : Option Json
  ui : Option String
  autofill : Option String
  cases : Option (List (String × π))
  input : Option Json
  output : Option Json
  deriving Repr

/-- A written pipe. The cases of its nodes are written pipes again, in the order in which they
stand; an expression may repeat. -/
structure Definition where
  id : Option String
  name : Option String
  nodes : List (NodeDef Definition)
  goto : Option String
  input : Option Json
  output : Option Json
  whitelist : Option (List String)
  progress : Option String
  deriving Repr

end Pipework
