import Haml.Text.Blank
/-! Lines: the physical lines of a source, and the lines of a finished text. -/

namespace Haml.Text

def dropReturn (cs : List Char) : List Char :=
  match cs.getLast? with
  | some '\r' => cs.dropLast
  | _ => cs

def physicalLines (cs : List Char) : List (List Char) :=
  (cs.splitOn '\n').map dropReturn

/-- The lines of a finished text. A final line feed ends the last line and opens none; a carriage
return is part of the line end only before a line feed. -/
def lines (cs : List Char) : List (List Char) :=
  let pieces := cs.splitOn '\n'
  let last := pieces.getLast?.getD []
  pieces.dropLast.map dropReturn ++ (if last.isEmpty then [] else [last])

def dropFinalNewline (cs : List Char) : List Char :=
  match cs.getLast? with
  | some '\n' => cs.dropLast
  | _ => cs

end Haml.Text
