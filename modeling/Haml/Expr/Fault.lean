import Haml.Error
import Haml.Value
/-! Why an expression has no value, and how that is reported. -/

namespace Haml

inductive Fault where
  | syntaxError (detail : String)
  | badEscape
  | undefinedValue
  | unknownFunction (name : String)
  | unknownFilter (name : Option String)
  | unknownTest (name : Option String)
  | unknownMethod (kind : Kind) (name : String)
  | unknownBlock (name : String)
  | tooManyArguments
  | missingArgument
  | unknownArgument (name : String)
  | unsupportedOperands (op : String) (left right : Kind)
  | uncomputable (op left right : String)
  | notIterable (kind : Kind)
  | notCallable (kind : Kind)
  | notConvertible (kind : Kind) (target : String)
  /-- An operation that does not apply, without further cause. -/
  | invalidOperation
  /-- An operation that refuses its operands in words of its own. -/
  | refused (reason : String)
  /-- Raised by the template itself. -/
  | raised (message : String)
  /-- A partial that the expression rendered failed. -/
  | inPartial (error : Error)
  deriving DecidableEq, Repr

namespace Fault

def message : Fault → String
  | syntaxError detail => "syntax error: " ++ detail
  | badEscape => "bad string escape"
  | undefinedValue => "undefined value"
  | unknownFunction name => "unknown function: " ++ name ++ " is unknown"
  | unknownFilter (some name) => "unknown filter: filter " ++ name ++ " is unknown"
  | unknownFilter none => "unknown filter"
  | unknownTest (some name) => "unknown test: test " ++ name ++ " is unknown"
  | unknownTest none => "unknown test"
  | unknownMethod kind name =>
      "unknown method: " ++ kind.text ++ " has no method named " ++ name
  | unknownBlock name => "unknown block: block '" ++ name ++ "' not found"
  | tooManyArguments => "too many arguments"
  | missingArgument => "missing argument"
  | unknownArgument name => "too many arguments: unknown keyword argument '" ++ name ++ "'"
  | unsupportedOperands op left right =>
      "tried to use " ++ op ++ " operator on unsupported types " ++ left.text ++ " and " ++
        right.text
  | uncomputable op left right => "unable to calculate " ++ left ++ " " ++ op ++ " " ++ right
  | notIterable kind => kind.text ++ " is not iterable"
  | notCallable kind => "value of type " ++ kind.text ++ " is not callable"
  | notConvertible kind target => "cannot convert " ++ kind.text ++ " to " ++ target
  | invalidOperation => "invalid operation"
  | refused reason => reason
  | raised message => message
  | inPartial error => error.message

/-- A fault as the failure of a render. A failure inside a partial keeps the place where it arose. -/
def error : Fault → Error
  | inPartial (.missingPartial name location) => .missingPartial name location
  | inPartial e => .evaluation e.location? e.message
  | fault => .evaluation none fault.message

end Fault

end Haml
