import Haml.Text.Blank
import Haml.Text.Case
/-! Paths: how they are put together, and what the name of a file says of its contents. -/

namespace Haml.Path

def isAbsolute (path : String) : Bool := path.toList.head? == some '/'

def endsInSlash (path : String) : Bool := path.toList.getLast? == some '/'

/-- A path as seen from a directory. An absolute path stands for itself. -/
def join (directory path : String) : String :=
  if isAbsolute path then path
  else if directory.isEmpty || endsInSlash directory then directory ++ path
  else directory ++ "/" ++ path

def pieces (path : String) : List String :=
  (path.toList.splitOn '/').map String.ofList

def fileName (path : String) : String :=
  ((pieces path).filter fun piece => piece ≠ "" && piece ≠ ".").getLast?.getD ""

/-- What stands after the last dot of the last name, unless the name only starts with it. -/
def extension (path : String) : String :=
  let name := (fileName path).toList.reverse
  match name.dropWhile (· ≠ '.') with
  | [] | ['.'] => ""
  | _ => Text.asciiLower (String.ofList (name.takeWhile (· ≠ '.')).reverse)

end Haml.Path
