import Haml.Evaluator
import Haml.Expr.Eval
import Haml.Expr.Parser
import Haml.Statement
/-! The evaluator for the expression language: conditions, loops and assignments over
expressions. -/

namespace Haml.Evaluator.Expressions

abbrev Render := Renderer Value → List Value → Except Fault Value

def evaluate (extra : List Function) (render : Render) (code : String) (c : Context) :
    Except Error Value :=
  (do Expr.eval ⟨extra, c.bindings, render⟩ (← Expr.parse code)).mapError Fault.error

section

variable (value? : String → Context → Except Error Value)

def conditional (condition : String) (wanted : Bool) (c : Context) (hasBlock : Bool) : Script :=
  match value? condition c with
  | .error e => .done (.error e) c
  | .ok value =>
      if value.isTrue = wanted then .once .taken hasBlock c else .done (.ok .skipped) c

def unpack (item : Value) : Nat → List String → Except Fault (List (String × Value))
  | _, [] => .ok []
  | i, target :: rest => do
      let part ← item.getItem (.int i)
      return (target, part) :: (← unpack item (i + 1) rest)

/-- What the targets of a loop stand for at one item. Of a map, two targets name key and value. -/
def targetsAt (collection : Value) (targets : List String) (item : Value) :
    Except Fault (List (String × Value)) :=
  match targets with
  | [target] => .ok [(target, item)]
  | [key, value] =>
      if collection.kind == .map then do
        return [(key, item), (value, ← collection.getItem item)]
      else unpack item 0 [key, value]
  | targets => unpack item 0 targets

def loopValue (index length : Nat) : Value :=
  .ofEntries [(.ofString "index", .int (index + 1)), (.ofString "index0", .int index),
    (.ofString "first", .bool (index = 0)), (.ofString "last", .bool (index + 1 = length)),
    (.ofString "length", .int length)]

def eachItem (collection : Value) (targets : List String) (length : Nat) :
    Nat → List Value → Context → Script
  | _, [], c => .done (.ok .taken) c
  | index, item :: rest, c =>
      match targetsAt collection targets item with
      | .error fault => .done (.error fault.error) c
      | .ok bound =>
          .block ((c.pushScope.bindAll bound).bind "loop" (loopValue index length))
            fun outcome c =>
              match outcome with
              | .error e => .done (.error e) c.popScope
              | .ok () => eachItem collection targets length (index + 1) rest c.popScope

def each (targets : List String) (items : String) (c : Context) (hasBlock : Bool) : Script :=
  match value? items c with
  | .error e => .done (.error e) c
  | .ok collection =>
      match collection.items with
      | .error fault => .done (.error fault.error) c
      | .ok [] => .done (.ok .skipped) c
      | .ok items =>
          if hasBlock then eachItem collection targets items.length 0 items c
          else .done (.ok .taken) c

def misplaced (keyword opener : String) (c : Context) : Script :=
  .done (.error (.evaluation none ("`" ++ keyword ++ "` without a preceding `" ++ opener ++ "`"))) c

def run (statement : Statement) (c : Context) (previous : Branch) (hasBlock : Bool) : Script :=
  match statement with
  | .ifTrue condition => conditional value? condition true c hasBlock
  | .ifFalse condition => conditional value? condition false c hasBlock
  | .elseIf condition =>
      match previous with
      | .taken => .done (.ok .taken) c
      | .skipped => conditional value? condition true c hasBlock
      | .idle => misplaced "elsif" "if" c
  | .otherwise =>
      match previous with
      | .taken => .done (.ok .idle) c
      | .skipped => .once .idle hasBlock c
      | .idle => misplaced "else" "if" c
  | .each targets items => each value? targets items c hasBlock
  | .assign name value =>
      match value? value c with
      | .error e => .done (.error e) c
      | .ok value => .done (.ok .idle) (c.assign name value)
  | .blockEnd => .done (.ok .idle) c
  | .expression code =>
      match value? code c with
      | .error e => .done (.error e) c
      | .ok _ => .once .idle hasBlock c

end

def evaluator (extra : List Function) (render : Render) : Evaluator :=
  ⟨evaluate extra render, Expr.check,
    fun code => run (evaluate extra render) (Statement.read code)⟩

end Haml.Evaluator.Expressions
