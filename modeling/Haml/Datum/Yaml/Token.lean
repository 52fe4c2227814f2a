import Haml.Datum.Yaml.Block
import Haml.Datum.Yaml.Plain
import Haml.Datum.Yaml.Quoted
import Haml.Datum.Yaml.Tag
/-! Tokens of a stream in YAML. -/

namespace Haml.Yaml

inductive Token where
  | directive (d : Directive)
  | documentStart
  | documentEnd
  | listStart
  | tableStart
  /-- The end of a list or a table whose extent its indentation gives. -/
  | blockEnd
  | flowListStart
  | flowListEnd
  | flowTableStart
  | flowTableEnd
  | item
  | comma
  | key
  | value
  | reference (name : String)
  | anchor (name : String)
  | tag (t : Tag)
  | scalar (isPlain : Bool) (text : String)
  deriving DecidableEq

end Haml.Yaml
