import Pipework.Evaluator

/-! What can be wrong with a template, or happen while it is evaluated. -/

namespace Pipework.Template

inductive Fault where
  | badSyntax
  | badEscape
  | undefinedValue
  | invalidOperation
  | unknownFilter
  | unknownTest
  | unknownFunction
  | unknownMethod
  | missingTemplate
  | tooManyArguments
  | missingArgument
  | cannotUnpack
  | numberOutOfRange
  | keyNotText
  | keyNotFinite
  deriving DecidableEq, Repr

def Fault.text : Fault → String
  | badSyntax => "syntax error"
  | badEscape => "bad string escape"
  | undefinedValue => "undefined value"
  | invalidOperation => "invalid operation"
  | unknownFilter => "unknown filter"
  | unknownTest => "unknown test"
  | unknownFunction => "unknown function"
  | unknownMethod => "unknown method"
  | missingTemplate => "template not found"
  | tooManyArguments => "too many arguments"
  | missingArgument => "missing argument"
  | cannotUnpack => "cannot unpack"
  | numberOutOfRange => "number out of range"
  | keyNotText => "key must be a string"
  | keyNotFinite => "float key must be finite"

def Fault.toError (f : Fault) : NodeError := .template f.text

end Pipework.Template
