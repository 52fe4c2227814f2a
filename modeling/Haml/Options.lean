import Haml.Dict
import Haml.Expr.Parser
import Haml.Filter
import Haml.Indent
/-! Options: what a template is compiled with. -/

namespace Haml

inductive Format where
  | xhtml
  | html4
  | html5
  deriving DecidableEq, Repr

namespace Format

def isHtml : Format → Bool
  | xhtml => false
  | html4 | html5 => true

def name : Format → String
  | xhtml => "xhtml"
  | html4 => "html4"
  | html5 => "html5"

def ofName? (name : String) : Option Format := [xhtml, html4, html5].find? fun f => f.name = name

end Format

structure Options where
  /-- The name of the template in the places of failures. -/
  templateId : String
  /-- Whether outputs are escaped unless they say otherwise. -/
  escapeHtml : Bool
  escapeAttributes : Bool
  /-- Whether code is left out instead of being run. -/
  suppressEval : Bool
  indentUnit : IndentUnit
  format : Format
  attributeWrapper : Char
  /-- The elements that close themselves when they are empty. -/
  autoclose : List String
  filters : Dict Filter
  /-- Why an expression in an attribute is refused; expressions go unchecked without it. -/
  syntaxCheck : Option (String → Except String Unit)

namespace Options

def standard : Options where
  templateId := "haml"
  escapeHtml := false
  escapeAttributes := true
  suppressEval := false
  indentUnit := .auto
  format := .xhtml
  attributeWrapper := '\''
  autoclose := ["meta", "img", "link", "br", "hr", "input", "area", "param", "col", "base"]
  filters := []
  syntaxCheck := some Expr.check

def closesItself (o : Options) (name : String) : Bool := o.autoclose.contains name

end Options

end Haml
