/-! Indentation units: what one level of nesting looks like in a document. -/

namespace Haml

/-- How the options say that nesting is indented. -/
inductive IndentUnit where
  | auto
  | tab
  | spaces (width : Nat)
  deriving DecidableEq, Repr

inductive Indent where
  | tab
  | spaces (width : Nat)
  deriving DecidableEq, Repr

namespace Indent

def describe : Indent → String
  | tab => "tabs"
  | spaces 1 => "1 space"
  | spaces n => toString n ++ " spaces"

def preset : IndentUnit → Option Indent
  | .auto => none
  | .tab => some .tab
  | .spaces n => if n = 0 then none else some (.spaces n)

def width (unit : Option Indent) (depth : Nat) : Nat :=
  match unit with
  | some .tab => depth
  | some (.spaces n) => depth * n
  | none => 0

end Indent

end Haml
