import Haml.Expr.Args
import Haml.Text.Case
/-! Functions: what expressions can call by name. The two that show and hold variables, `debug` and
`namespace`, are not among them. -/

namespace Haml.Expr

namespace Functions

def countTo (start stop step : Int) : Except Fault (List Int) :=
  if step = 0 then .error (.refused "cannot create range with step of 0")
  else
    let distance := if 0 < step then stop - start else start - stop
    let count := (distance.toNat + step.natAbs - 1) / step.natAbs
    if 100000 < count then .error (.refused "range has too many elements")
    else .ok ((List.range count).map fun (i : Nat) => start + step * (i : Int))

def range (args : Args) : Except Fault Value := do
  let bound ← Args.toWord 64 "isize" (← Args.required args.all 0)
  let stop ← Args.optionalWord 64 "isize" args.all 1
  let step ← Args.optionalWord 64 "isize" args.all 2
  let _ ← Args.atMost 3 args.all
  let numbers ← match stop with
    | some stop => countTo bound stop (step.getD 1)
    | none => countTo 0 bound (step.getD 1)
  return .iter (numbers.map .int) true

def dict (args : Args) : Except Fault Value := do
  let values ← Args.atMost 1 args.values
  let named := (args.named.getD []).map fun (k, v) => (Value.ofString k, v)
  match Args.optional values 0 with
  | some (.map entries) => return .ofEntries (entries ++ named)
  | some (.renderer _) | none => return .ofEntries named
  | some _ => throw .invalidOperation

def raise (args : Args) : Except Fault Value := do
  let args ← Args.atMost 1 args.all
  throw (.raised (← Args.text args 0))

def shout (args : Args) : Except Fault Value := do
  let args ← Args.atMost 1 args.all
  return .ofString (Text.asciiUpper (← Args.text args 0))

end Functions

end Haml.Expr

namespace Haml.Function

def run : Function → Expr.Args → Except Fault Value
  | .range => Expr.Functions.range
  | .dict => Expr.Functions.dict
  | .raise => Expr.Functions.raise
  | .shout => Expr.Functions.shout

def name : Function → String
  | .range => "range"
  | .dict => "dict"
  | .raise => "raise"
  | .shout => "shout"

end Haml.Function
