import Haml.Text.Printable
import Haml.Value
/-! The text of values: how they are written into output, and how inside a container. -/

namespace Haml.Value

mutual

def inspect : Value → String
  | undefined => "undefined"
  | null => "None"
  | bool b => if b then "True" else "False"
  | int n => toString n
  | float x => Decimal.exponentStyle.write x
  | text s _ => Haml.Text.quote s
  | list items => "[" ++ ", ".intercalate (inspectAll items) ++ "]"
  | iter items _ => "[" ++ ", ".intercalate (inspectAll items) ++ "]"
  | map entries => "\x7b" ++ ", ".intercalate (inspectEntries entries) ++ "\x7d"
  | function _ => "<function>"
  | renderer .. => "\x7b\x7d"

def inspectAll : List Value → List String
  | [] => []
  | v :: vs => inspect v :: inspectAll vs

def inspectEntries : List (Value × Value) → List String
  | [] => []
  | (k, v) :: rest => (inspect k ++ ": " ++ inspect v) :: inspectEntries rest

end

def display : Value → String
  | undefined => ""
  | text s _ => s
  | float x => Decimal.fractionStyle.write x
  | v => inspect v

def shown (v : Value) : String := if v.isAbsent then "" else v.display

end Haml.Value
