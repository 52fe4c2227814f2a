import Haml.Text.Blank
/-! Bindings: variables given as `NAME=VALUE`. -/

namespace Haml

structure Binding where
  name : String
  value : String
  deriving DecidableEq, Repr

inductive BindingFault where
  | noValue (text : String)
  | noName (text : String)
  deriving DecidableEq, Repr

def BindingFault.text : BindingFault → String
  | noValue text => "expected NAME=VALUE, found `" ++ text ++ "`"
  | noName text => "missing variable name in `" ++ text ++ "`"

namespace Binding

def text (b : Binding) : String := b.name ++ "=" ++ b.value

def parse (text : String) : Except BindingFault Binding :=
  match Text.splitOnce ['='] text.toList with
  | none => .error (.noValue text)
  | some ([], _) => .error (.noName text)
  | some (name, value) => .ok ⟨String.ofList name, String.ofList value⟩

end Binding

end Haml
