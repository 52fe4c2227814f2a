import Haml.Attribute.Set
import Haml.Value.Text
/-! Attributes that a render computes: what values of expressions stand for. -/

namespace Haml.Attribute

def separator (name : String) : String := if name = "id" then "-" else " "

def joined (name : String) (items : List Value) : AttributeValue :=
  .text ((separator name).intercalate
    ((items.filter fun item => !item.isAbsent).map Value.display))

/-- The attribute that a value stands for; none for an absent value. -/
def ofValue? (name : String) (v : Value) : Option AttributeValue :=
  match v with
  | .undefined | .null => none
  | .bool b => some (.flag b)
  | .list items | .iter items _ => some (joined name items)
  | v => some (.text v.display)

end Haml.Attribute
