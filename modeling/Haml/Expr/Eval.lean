import Haml.Expr.Filters
import Haml.Expr.Functions
import Haml.Expr.Syntax
/-! Evaluation: the value of an expression where certain variables are bound. -/

namespace Haml

def ArgForm.isPositional : ArgForm → Bool
  | .positional | .spread => true
  | .named _ | .spreadNamed => false

def BinaryOp.apply : BinaryOp → Value → Value → Except Fault Value
  | .add => Value.add
  | .sub => Value.sub
  | .mul => Value.mul
  | .div => Value.div
  | .floorDiv => Value.floorDiv
  | .mod => Value.mod
  | .pow => Value.pow
  | .concat => fun a b => .ok (a.concat b)
  | .eq => fun a b => .ok (.bool (a.equal b))
  | .ne => fun a b => .ok (.bool !(a.equal b))
  | .lt => fun a b => .ok (.bool (a.compare b == .lt))
  | .le => fun a b => .ok (.bool (a.compare b != .gt))
  | .gt => fun a b => .ok (.bool (a.compare b == .gt))
  | .ge => fun a b => .ok (.bool (a.compare b != .lt))
  | .isIn => fun a b => .bool <$> b.contains a

namespace Expr

structure Env where
  /-- Functions beside those that are always there. -/
  extra : List Function
  bindings : Dict Value
  /-- Calls the function that renders partials. -/
  render : Renderer Value → List Value → Except Fault Value

namespace Env

def global? (env : Env) (name : String) : Option Value :=
  if name = "nil" then some .null
  else
    let functions : List Function := [.range, .dict, .raise] ++ env.extra
    (functions.find? fun f => f.name = name).map .function

def lookup? (env : Env) (name : String) : Option Value :=
  (env.bindings.find? name).or (env.global? name)

end Env

def namedEntries : List (ArgForm × Value) → Except Fault (List (String × Value))
  | [] => .ok []
  | (.named name, v) :: rest => ((name, v) :: ·) <$> namedEntries rest
  | (_, .map entries) :: rest =>
      (entries.map (fun (k, v) => (k.display, v)) ++ ·) <$> namedEntries rest
  | (_, .renderer _) :: rest => namedEntries rest
  | (_, v) :: _ =>
      .error (.refused ("attempted to apply keyword arguments from non map (got " ++
        v.kind.text ++ ")"))

def positionalValues : List (ArgForm × Value) → Except Fault (List Value)
  | [] => .ok []
  | (.spread, v) :: rest => do return (← v.items) ++ (← positionalValues rest)
  | (_, v) :: rest => (v :: ·) <$> positionalValues rest

def Args.ofGiven (positional named : List (ArgForm × Value)) : Except Fault Args := do
  let entries ← namedEntries named
  let values ← positionalValues positional
  return ⟨values, if named.isEmpty then Option.none else some (Dict.ofList entries)⟩

def callValue (env : Env) (callee : Value) (args : Args) : Except Fault Value :=
  match callee with
  | .function f => f.run args
  | .renderer r => env.render r args.all
  | .list _ | .iter .. | .map _ => .error (.refused "object is not callable")
  | v => .error (.notCallable v.kind)

def callMethod (env : Env) (v : Value) (name : String) (args : Args) : Except Fault Value :=
  match v with
  | .map entries =>
      match Value.atKey? (.ofString name) entries with
      | some callee => callValue env callee args
      | none => .error (.unknownMethod v.kind name)
  | _ => .error (.unknownMethod v.kind name)

def callName (env : Env) (name : String) (args : Args) : Except Fault Value :=
  if name = "super" then
    .error (.refused
      (if args.all.isEmpty then "cannot super outside of block" else "super() takes no arguments"))
  else if name = "loop" then
    .error (.refused
      (if args.all.length = 1 then "cannot recurse outside of loop"
        else "loop() takes one argument"))
  else
    match env.lookup? name with
    | some callee => callValue env callee args
    | none => .error (.unknownFunction name)

mutual

def eval (env : Env) : Expr → Except Fault Value
  | .absent => .ok .null
  | .bool b => .ok (.bool b)
  | .int n => .ok (.int n)
  | .float x => .ok (.float x)
  | .text s => .ok (.ofString s)
  | .var name => .ok ((env.lookup? name).getD .undefined)
  | .list items => .list <$> evalAll env items
  | .map entries => .ofEntries <$> evalEntries env entries
  | .not e => do return .bool !(← eval env e).isTrue
  | .neg e => do (← eval env e).neg
  | .binary op left right => do
      let a ← eval env left
      let b ← eval env right
      op.apply a b
  | .and left right => do
      let a ← eval env left
      if a.isTrue then eval env right else return a
  | .or left right => do
      let a ← eval env left
      if a.isTrue then return a else eval env right
  | .cond condition yes no => do
      if (← eval env condition).isTrue then eval env yes else evalOr env .undefined no
  | .attr e name => do (← eval env e).getAttr name
  | .item e key => do
      let v ← eval env e
      let k ← eval env key
      v.getItem k
  | .slice e start stop step => do
      let v ← eval env e
      let start ← evalOr env .null start
      let stop ← evalOr env .null stop
      let step ← evalOr env .null step
      v.slice start stop step
  | .filter name e args => do
      let v ← eval env e
      let args ← evalArgs env args
      applyFilter name v args
  | .test name e args => do
      let v ← eval env e
      let args ← evalArgs env args
      return .bool (← applyTest name v args)
  | .call (.var name) args => do callName env name (← evalArgs env args)
  | .call (.attr (.var "self") name) _ => .error (.unknownBlock name)
  | .call (.attr e name) args => do
      let v ← eval env e
      let args ← evalArgs env args
      callMethod env v name args
  | .call callee args => do
      let v ← eval env callee
      let args ← evalArgs env args
      callValue env v args

def evalOr (env : Env) (standIn : Value) : Option Expr → Except Fault Value
  | some e => eval env e
  | none => .ok standIn

def evalAll (env : Env) : List Expr → Except Fault (List Value)
  | [] => .ok []
  | e :: es => do
      let v ← eval env e
      return v :: (← evalAll env es)

def evalEntries (env : Env) : List (Expr × Expr) → Except Fault (List (Value × Value))
  | [] => .ok []
  | (k, e) :: rest => do
      let key ← eval env k
      let v ← eval env e
      return (key, v) :: (← evalEntries env rest)

def evalArgs (env : Env) (args : List (ArgForm × Expr)) : Except Fault Args := do
  let positional ← evalGiven env true args
  let named ← evalGiven env false args
  Args.ofGiven positional named

def evalGiven (env : Env) (positional : Bool) :
    List (ArgForm × Expr) → Except Fault (List (ArgForm × Value))
  | [] => .ok []
  | (form, e) :: rest =>
      if form.isPositional == positional then do
        let v ← eval env e
        return (form, v) :: (← evalGiven env positional rest)
      else evalGiven env positional rest

end

end Expr

end Haml
