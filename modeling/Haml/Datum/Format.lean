import Haml.Datum.Ini
import Haml.Datum.Json
import Haml.Datum.Kdl
import Haml.Datum.Toml
import Haml.Datum.Yaml
/-! The formats that data is written in. -/

namespace Haml

inductive DataFormat where
  | text
  | json
  | toml
  | yaml
  | kdl
  | ini
  deriving DecidableEq, Repr

namespace DataFormat

def ofName? : String → Option DataFormat
  | "" | "text" | "txt" => some text
  | "json" => some json
  | "toml" => some toml
  | "yaml" | "yml" => some yaml
  | "kdl" => some kdl
  | "ini" => some ini
  | _ => none

def read : DataFormat → String → Option Datum
  | text, contents => some (.text contents)
  | json, contents => Json.read contents
  | toml, contents => Toml.read contents
  | yaml, contents => Yaml.read contents
  | kdl, contents => Kdl.read contents
  | ini, contents => Ini.read contents

end DataFormat

end Haml
