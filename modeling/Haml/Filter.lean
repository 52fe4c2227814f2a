import Haml.Text.Lines
import Haml.Text.Markup
/-! Filters: named transforms of raw text. Their output joins the document without escaping. -/

namespace Haml

inductive FilterError where
  | missingDependency (name : String)
  | failed (reason : String)
  deriving DecidableEq, Repr

def FilterError.text : FilterError → String
  | missingDependency name => "required `" ++ name ++ "` not found"
  | failed reason => reason

abbrev Filter := String → Except FilterError String

namespace Filter

/-- Four spaces before every line that is not empty; white space at the end is dropped. -/
def indentLines (cs : List Char) : List Char :=
  List.intercalate ['\n'] <| (Text.lines (Text.trimEnd cs)).map fun line =>
    if line.isEmpty then [] else "    ".toList ++ line

def indented (text : String) : String := String.ofList (indentLines text.toList)

def plain : Filter := fun text => .ok text

def escaped : Filter := fun text => .ok (Markup.escape text)

def encodeNewline (c : Char) : List Char := if c = '\n' then "&#x000A;".toList else [c]

def preserve : Filter := fun text =>
  .ok (String.ofList ((Text.trimEnd text.toList).flatMap encodeNewline) ++ "\n")

def javascript : Filter := fun text =>
  .ok ("<script type='text/javascript'>\n  //<![CDATA[\n" ++ indented text ++
    "\n  //]]>\n</script>\n")

def css : Filter := fun text =>
  .ok ("<style type='text/css'>\n  /*<![CDATA[*/\n" ++ indented text ++
    "\n  /*]]>*/\n</style>\n")

def cdata : Filter := fun text => .ok ("<![CDATA[\n" ++ indented text ++ "\n]]>\n")

def unavailable (dependency : String) : Filter := fun _ => .error (.missingDependency dependency)

end Filter

end Haml
