import Haml.Datum
/-! Documents in KDL: nodes with arguments, properties and further nodes, and the data they stand for.
Nodes become keys: a node with children is a table, one argument is its value, properties form a
table, and any other entries a list. -/

namespace Haml.Kdl

structure Name where
  value : String
  /-- The name as it is written, with its quotes if it has any. -/
  spelling : String
  deriving DecidableEq, Repr

structure Entry where
  name : Option Name
  value : Datum

structure Node where
  name : Name
  entries : List Entry
  children : Option (List Node)

abbrev Document := List Node

def entriesDatum : List Entry → Datum
  | [] => .null
  | [⟨none, d⟩] => d
  | entries =>
      if entries.all fun e => e.name.isSome then
        .ofEntries (entries.filterMap fun e => e.name.map fun name => (name.value, e.value))
      else .list (entries.map Entry.value)

mutual

def Node.datum : Node → Datum
  | ⟨_, _, some nodes⟩ => .ofEntries (fields nodes)
  | ⟨_, entries, none⟩ => entriesDatum entries

/-- Nodes as the entries of a table. The key of a node is its name as it is written. -/
def fields : List Node → List (String × Datum)
  | [] => []
  | n :: nodes => (n.name.spelling, n.datum) :: fields nodes

end

def Document.datum (d : Document) : Datum := .ofEntries (fields d)

end Haml.Kdl
