import Haml.Value.Order
/-! Data: what files of data hold, in whatever format they are written. -/

namespace Haml

inductive Datum where
  | null
  | bool (value : Bool)
  | int (value : Int)
  | float (value : Float)
  | text (value : String)
  /-- A date or a time, as it is written. -/
  | moment (value : String)
  | list (items : List Datum)
  /-- Entries in the order of their keys. -/
  | table (entries : List (String × Datum))
  deriving Inhabited

namespace Datum

/-- The table of the entries; of entries with one key the last. -/
def ofEntries (entries : List (String × Datum)) : Datum := .table (Dict.ofList entries)

def ofFloat (x : Float) : Datum := if x.isFinite then .float x else .null

mutual

def toValue : Datum → Value
  | null => .null
  | bool b => .bool b
  | int n => .int n
  | float x => .float x
  | text s | moment s => .ofString s
  | list items => .list (toValues items)
  | table entries => .map (toEntries entries)

def toValues : List Datum → List Value
  | [] => []
  | d :: ds => toValue d :: toValues ds

def toEntries : List (String × Datum) → List (Value × Value)
  | [] => []
  | (k, d) :: rest => (.ofString k, toValue d) :: toEntries rest

end

def field? (d : Datum) (name : String) : Option Datum :=
  match d with
  | table entries => Dict.find? entries name
  | _ => none

end Datum

end Haml
