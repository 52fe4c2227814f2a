import Haml.Datum.Format
import Haml.Error
import Haml.Files
/-! Sources of data: files with the format that they are read in. -/

namespace Haml

structure DataSource where
  path : String
  /-- The format if it is given and not left to the path. -/
  given : Option String
  deriving DecidableEq, Repr

namespace DataSource

def format (s : DataSource) : String :=
  match s.given with
  | some name => Text.asciiLower (String.ofList (Text.trim name.toList))
  | none => Path.extension s.path

def parse (s : DataSource) (contents : String) : Except Error Datum :=
  match DataFormat.ofName? s.format with
  | none => .error (.unsupportedFormat s.format)
  | some format =>
      match format.read contents with
      | some datum => .ok datum
      | none => .error (.dataFile s.path .malformed)

variable {m : Type → Type} [Monad m]

/-- Loads the data of a source whose path is seen from a directory. A file that cannot be read fails
before its format is looked at. -/
def load (files : Files m) (directory : String) (s : DataSource) : m (Except Error Datum) := do
  match ← files.read (Path.join directory s.path) with
  | .error fault => return .error (.dataFile s.path (.unreadable fault.text))
  | .ok contents => return s.parse contents

def loadAll (files : Files m) (directory : String) :
    List (String × DataSource) → Dict Datum → m (Except Error (Dict Datum))
  | [], loaded => return .ok loaded
  | (name, s) :: rest, loaded => do
      match ← s.load files directory with
      | .error e => return .error e
      | .ok datum => loadAll files directory rest (loaded.insert name datum)

end DataSource

end Haml
