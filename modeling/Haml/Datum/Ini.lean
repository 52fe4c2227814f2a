import Haml.Datum
import Haml.Text.Lines
/-! Data in INI: lines of `key = value`, and sections in brackets that hold those below them. -/

namespace Haml.Ini

inductive Item where
  | nothing
  | pair (key value : String)
  | heading (name : String)

def trimmed (cs : List Char) : String := String.ofList (Text.trim cs)

def item? (cs : List Char) : Option Item :=
  match cs with
  | [] => some .nothing
  | ';' :: _ | '#' :: _ => some .nothing
  | '[' :: rest =>
      if rest.getLast? == some ']' && !rest.dropLast.contains ']' then
        some (.heading (String.ofList rest.dropLast))
      else none
  | cs =>
      match Text.splitOnce ['='] cs with
      | some (key, value) => some (.pair (trimmed key) (trimmed value))
      | none => none

def group : List Item → List (String × Datum) × List (String × Datum)
  | [] => ([], [])
  | .nothing :: rest => group rest
  | .pair key value :: rest =>
      let (entries, sections) := group rest
      ((key, .text value) :: entries, sections)
  | .heading name :: rest =>
      let (entries, sections) := group rest
      ([], (name, .ofEntries entries) :: sections)

def read (source : String) : Option Datum := do
  let items ← (Text.lines source.toList).mapM item?
  let (entries, sections) := group items
  return .ofEntries (entries ++ sections)

end Haml.Ini
