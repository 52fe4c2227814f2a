import Haml.DataSource
import Haml.Filter.Registry
import Haml.Options.Decode
/-! Configuration: the options and the data that a directory sets for its templates. -/

namespace Haml

structure Config where
  options : Options
  /-- The data to be loaded, by the names of its variables. -/
  data : Dict DataSource

namespace Config

def standard : Config := ⟨{ Options.standard with filters := Filter.builtin }, []⟩

def source (d : Datum) : Except DataFault DataSource :=
  match d, d.field? "path", d.field? "format" with
  | .text path, _, _ => .ok ⟨path, none⟩
  | .table _, some (.text path), some (.text format) => .ok ⟨path, some format⟩
  | _, _, _ => .error .malformed

def sources : Datum → Except DataFault (Dict DataSource)
  | .table entries => entries.mapM fun (name, d) => return (name, ← source d)
  | _ => .error .malformed

def ofDatum (d : Datum) : Except DataFault Config := do
  let options ← match d.field? "compiler" with
    | some d => Options.ofDatum standard.options d
    | none => pure standard.options
  let data ← match d.field? "data" with
    | some d => sources d
    | none => pure []
  return ⟨options, data⟩

def parse (contents : String) : Except Error Config :=
  match Toml.read contents with
  | none => .error (.configParse .malformed)
  | some d => (ofDatum d).mapError .configParse

/-- The files that may hold the configuration of a directory, the first one first in rank. -/
def candidates : List String := ["hamlet.toml", ".hamlet.toml", ".config/hamlet.toml"]

variable {m : Type → Type} [Monad m]

def firstFile (files : Files m) : List String → m (Option String)
  | [] => return none
  | path :: rest => do
      if ← files.isFile path then return some path
      else firstFile files rest

def resolve (files : Files m) (directory : String) : m (Option String) :=
  firstFile files (candidates.map (Path.join directory))

def load (files : Files m) (directory : String) : m (Except Error (Option Config)) := do
  match ← resolve files directory with
  | none => return .ok none
  | some path =>
      match ← files.read path with
      | .error fault => return .error (.io fault.text)
      | .ok contents => return some <$> parse contents

def loadData (files : Files m) (directory : String) (c : Config) :
    m (Except Error (Dict Datum)) :=
  DataSource.loadAll files directory c.data []

end Config

end Haml
