import Haml.Evaluator
import Haml.Text.Case
/-! An evaluator that knows no expressions: code stands for itself in upper case. -/

namespace Haml.Evaluator.Echo

def evaluate (code : String) (_ : Context) : Except Error Value :=
  .ok (.ofString (Text.asciiUpper code))

def execute (_ : String) (context : Context) (_ : Branch) (hasBlock : Bool) : Script :=
  if hasBlock then
    .block context fun outcome context =>
      match outcome with
      | .ok () => .once .idle true context
      | .error e => .done (.error e) context
  else .done (.ok .idle) context

def evaluator : Evaluator := ⟨evaluate, fun _ => .ok (), execute⟩

end Haml.Evaluator.Echo
