import Haml.Options
import Haml.Text.Blank
import Haml.Text.Case
/-! Document type lines: what `!!!` stands for in each format. -/

namespace Haml.Doctype

def declare (identifier url : String) : String :=
  "<!DOCTYPE html PUBLIC \"" ++ identifier ++ "\" \"" ++ url ++ "\">"

def html5 : String := "<!DOCTYPE html>"

def html4 (kind : String) : String :=
  match kind with
  | "strict" => declare "-//W3C//DTD HTML 4.01//EN" "http://www.w3.org/TR/html4/strict.dtd"
  | "frameset" =>
      declare "-//W3C//DTD HTML 4.01 Frameset//EN" "http://www.w3.org/TR/html4/frameset.dtd"
  | _ => declare "-//W3C//DTD HTML 4.01 Transitional//EN" "http://www.w3.org/TR/html4/loose.dtd"

def xhtml (kind : String) : String :=
  match kind with
  | "5" => html5
  | "strict" =>
      declare "-//W3C//DTD XHTML 1.0 Strict//EN" "http://www.w3.org/TR/xhtml1/DTD/xhtml1-strict.dtd"
  | "frameset" =>
      declare "-//W3C//DTD XHTML 1.0 Frameset//EN"
        "http://www.w3.org/TR/xhtml1/DTD/xhtml1-frameset.dtd"
  | "1.1" => declare "-//W3C//DTD XHTML 1.1//EN" "http://www.w3.org/TR/xhtml11/DTD/xhtml11.dtd"
  | "basic" =>
      declare "-//W3C//DTD XHTML Basic 1.1//EN"
        "http://www.w3.org/TR/xhtml-basic/xhtml-basic11.dtd"
  | "mobile" =>
      declare "-//WAPFORUM//DTD XHTML Mobile 1.2//EN"
        "http://www.openmobilealliance.org/tech/DTD/xhtml-mobile12.dtd"
  | _ =>
      declare "-//W3C//DTD XHTML 1.0 Transitional//EN"
        "http://www.w3.org/TR/xhtml1/DTD/xhtml1-transitional.dtd"

def prolog (wrapper : Char) (encoding : String) : String :=
  let q := String.singleton wrapper
  "<?xml version=" ++ q ++ "1.0" ++ q ++ " encoding=" ++ q ++ encoding ++ q ++ " ?>"

def text? (argument : String) (format : Format) (wrapper : Char) : Option String :=
  let words := (Text.words argument.toList).map String.ofList
  let kind := Text.asciiLower (words.head?.getD "")
  if kind = "xml" then
    if format.isHtml then none else some (prolog wrapper (words[1]?.getD "utf-8"))
  else
    match format with
    | .html5 => some html5
    | .html4 => some (html4 kind)
    | .xhtml => some (xhtml kind)

end Haml.Doctype
