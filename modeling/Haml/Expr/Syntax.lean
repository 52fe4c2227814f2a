/-! Expressions: the syntax of the code in templates. -/

namespace Haml

inductive BinaryOp where
  | add
  | sub
  | mul
  | div
  | floorDiv
  | mod
  | pow
  | concat
  | eq
  | ne
  | lt
  | le
  | gt
  | ge
  | isIn
  deriving DecidableEq, Repr

inductive ArgForm where
  | positional
  | named (name : String)
  /-- The items of a value, each as an argument. -/
  | spread
  /-- The entries of a map, each as a named argument. -/
  | spreadNamed
  deriving DecidableEq, Repr

inductive Expr where
  | absent
  | bool (value : Bool)
  | int (value : Int)
  | float (value : Float)
  | text (value : String)
  | var (name : String)
  | list (items : List Expr)
  | map (entries : List (Expr × Expr))
  | not (e : Expr)
  | neg (e : Expr)
  | binary (op : BinaryOp) (left right : Expr)
  | and (left right : Expr)
  | or (left right : Expr)
  | cond (test yes : Expr) (no : Option Expr)
  | attr (e : Expr) (name : String)
  | item (e key : Expr)
  | slice (e : Expr) (start stop step : Option Expr)
  | filter (name : String) (e : Expr) (args : List (ArgForm × Expr))
  | test (name : String) (e : Expr) (args : List (ArgForm × Expr))
  | call (callee : Expr) (args : List (ArgForm × Expr))

end Haml
