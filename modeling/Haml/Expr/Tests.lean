import Haml.Expr.Args
/-! Tests: the questions that `is` asks of a value. Those for upper and lower case, for sameness, and
for the names of filters and tests are not among them. -/

namespace Haml.Expr

abbrev Test := Value → List Value → Except Fault Bool

namespace Test

def simple (p : Value → Bool) : Test := fun v args => do
  let _ ← Args.atMost 0 args
  return p v

def against (p : Value → Value → Bool) : Test := fun v args => do
  let args ← Args.atMost 1 args
  return p v (← Args.required args 0)

def againstText (p : List Char → List Char → Bool) : Test := fun v args => do
  let args ← Args.atMost 1 args
  return p v.display.toList (← Args.text args 0).toList

def isOdd (v : Value) : Bool := (v.toInt?.map fun n => n % 2 != 0).getD false

def isEven (v : Value) : Bool := (v.toInt?.map fun n => n % 2 == 0).getD false

def isWhole : Value → Bool
  | .int _ => true
  | _ => false

def isFloat : Value → Bool
  | .float _ => true
  | _ => false

def isTruth (b : Bool) : Value → Bool
  | .bool c => b == c
  | _ => false

def divides (v divisor : Value) : Bool :=
  match Value.coerce false v divisor with
  | some (.ints m n) => n != 0 && m % n == 0
  | some (.floats x y) => Decimal.remainder x y == 0
  | _ => false

def isIn : Test := fun v args => do
  let args ← Args.atMost 1 args
  return ((← Args.required args 0).contains v).toOption.getD false

def table : List (String × Test) :=
  [("defined", simple fun v => v.kind != .undefined),
    ("undefined", simple fun v => v.kind == .undefined),
    ("none", simple fun v => v.kind == .none),
    ("string", simple fun v => v.kind == .string),
    ("number", simple fun v => v.kind == .number),
    ("integer", simple isWhole),
    ("int", simple isWhole),
    ("float", simple isFloat),
    ("boolean", simple fun v => v.kind == .bool),
    ("odd", simple isOdd),
    ("even", simple isEven),
    ("mapping", simple fun v => v.kind == .map),
    ("sequence", simple fun v => v.kind == .sequence),
    ("iterable", simple fun v => v.items?.isSome),
    ("true", simple (isTruth true)),
    ("false", simple (isTruth false)),
    ("safe", simple Value.isSafe),
    ("escaped", simple Value.isSafe),
    ("divisibleby", against divides),
    ("in", isIn),
    ("eq", against Value.equal),
    ("equalto", against Value.equal),
    ("==", against Value.equal),
    ("ne", against fun v w => !Value.equal v w),
    ("!=", against fun v w => !Value.equal v w),
    ("lt", against fun v w => v.compare w == .lt),
    ("lessthan", against fun v w => v.compare w == .lt),
    ("<", against fun v w => v.compare w == .lt),
    ("le", against fun v w => v.compare w != .gt),
    ("<=", against fun v w => v.compare w != .gt),
    ("gt", against fun v w => v.compare w == .gt),
    ("greaterthan", against fun v w => v.compare w == .gt),
    (">", against fun v w => v.compare w == .gt),
    ("ge", against fun v w => v.compare w != .lt),
    (">=", against fun v w => v.compare w != .lt),
    ("startingwith", againstText fun s t => t.isPrefixOf s),
    ("endingwith", againstText fun s t => t.isSuffixOf s)]

end Test

def applyTest (name : String) (v : Value) (args : Args) : Except Fault Bool :=
  match Test.table.lookup name with
  | some passes => passes v args.all
  | none => .error (.unknownTest (some name))

end Haml.Expr
