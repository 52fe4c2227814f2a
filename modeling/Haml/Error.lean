import Haml.Indent
/-! Failures: why a template does not compile, why a render stops, and how each is reported. -/

namespace Haml

/-- A line of a template, shown as `(template):line`. -/
structure Location where
  template : String
  line : Nat
  deriving DecidableEq, Repr

def Location.text (l : Location) : String := "(" ++ l.template ++ "):" ++ toString l.line

/-- Why the leading white space of a line does not fit the document's unit. -/
inductive IndentFault where
  | notMultiple (count width : Nat)
  | mismatch (found expected : Indent)
  deriving DecidableEq, Repr

def IndentFault.text : IndentFault → String
  | notMultiple count width =>
      "indentation of " ++ toString count ++ " spaces is not a multiple of the document's " ++
        toString width ++ "-space unit"
  | mismatch found expected =>
      "the line was indented with " ++ found.describe ++
        ", but the rest of the document was indented using " ++ expected.describe

/-- How a line is deeper than the lines before it allow. -/
inductive Jump where
  | atStart
  | levels (count : Nat)
  deriving DecidableEq, Repr

def Jump.text : Jump → String
  | atStart => "indenting at the beginning of the document is illegal"
  | levels count =>
      "the line was indented " ++ toString count ++ " levels deeper than the previous line"

/-- Why nothing may be nested where a line stands. -/
inductive NestingFault where
  | plainText
  | outputLine
  | headerCommand
  | tagContent
  | selfClosing
  | commentText
  | rawBlock
  | selfClosingContent
  deriving DecidableEq, Repr

def NestingFault.text : NestingFault → String
  | plainText => "nesting within plain text is illegal"
  | outputLine => "nesting within an output line is illegal"
  | headerCommand => "nesting within a header command is illegal"
  | tagContent => "content can't be both given on the same line as the tag and nested within it"
  | selfClosing => "nesting within a self-closing tag is illegal"
  | commentText =>
      "content can't be both given on the same line as the comment and nested within it"
  | rawBlock => "nesting within a raw block is illegal"
  | selfClosingContent => "self-closing tags can't have content"

inductive AttributeFault where
  | unbalanced
  | missingValue (name : String)
  | badKey (found : String)
  | expectedName (found : String)
  | badLiteral (reason : String)
  | badExpression (code reason : String)
  deriving DecidableEq, Repr

def AttributeFault.text : AttributeFault → String
  | unbalanced => "unbalanced brackets"
  | missingValue name => "missing value for `" ++ name ++ "`"
  | badKey found => "attribute names must be symbols or strings, found `" ++ found ++ "`"
  | expectedName found => "expected an attribute name, found `" ++ found ++ "`"
  | badLiteral reason => reason
  | badExpression code reason => "invalid expression `" ++ code ++ "`: " ++ reason

/-- Why a file of data or settings was not understood. -/
inductive DataFault where
  | unreadable (reason : String)
  | malformed
  | settings (reason : String)
  deriving DecidableEq, Repr

def DataFault.text : DataFault → String
  | unreadable reason => reason
  | malformed => "the contents are not well formed"
  | settings reason => reason

inductive Error where
  | io (reason : String)
  | inconsistentIndentation (line : Nat) (jump : Jump)
  | mixedIndentation (line : Nat)
  | illegalIndentation (line : Nat) (fault : IndentFault)
  | illegalNesting (line : Nat) (fault : NestingFault)
  | invalidTag (line : Nat) (tag : String)
  | unknownShorthand (line : Nat) (sigil : Char)
  | invalidFilterName (line : Nat) (name : String)
  | unknownFilter (line : Nat) (name : String)
  | attributeSyntax (line : Nat) (fault : AttributeFault)
  | unterminatedInterpolation (line : Nat)
  | evaluation (location : Option Location) (message : String)
  | filterUnavailable (filter required : String) (location : Option Location)
  | missingPartial (name : String) (location : Option Location)
  | undefinedMethod (name : String)
  | configParse (fault : DataFault)
  | dataFile (path : String) (fault : DataFault)
  | unsupportedFormat (format : String)
  deriving DecidableEq, Repr

inductive ErrorClass where
  | parse
  | evaluation
  | config
  deriving DecidableEq, Repr

namespace Error

def code : Error → String
  | io .. => "hamlet::io_error"
  | inconsistentIndentation .. => "hamlet::inconsistent_indentation"
  | mixedIndentation .. => "hamlet::mixed_indentation"
  | illegalIndentation .. => "hamlet::illegal_indentation"
  | illegalNesting .. => "hamlet::illegal_nesting"
  | invalidTag .. => "hamlet::invalid_tag"
  | unknownShorthand .. => "hamlet::unknown_shorthand"
  | invalidFilterName .. => "hamlet::invalid_filter_name"
  | unknownFilter .. => "hamlet::unknown_filter"
  | attributeSyntax .. => "hamlet::attribute_syntax"
  | unterminatedInterpolation .. => "hamlet::unterminated_interpolation"
  | evaluation .. => "hamlet::evaluation"
  | filterUnavailable .. => "hamlet::filter_unavailable"
  | missingPartial .. => "hamlet::missing_partial"
  | undefinedMethod .. => "hamlet::undefined_method"
  | configParse .. => "hamlet::config_parse"
  | dataFile .. => "hamlet::data_file"
  | unsupportedFormat .. => "hamlet::unsupported_format"

def help : Error → Option String
  | inconsistentIndentation .. =>
      some "nested lines must be indented exactly one level deeper than their parent"
  | illegalIndentation .. => some "use the same indentation unit throughout the template"
  | invalidFilterName .. =>
      some "filter names are written `:name` with letters, digits, `_` or `-`"
  | unknownFilter .. => some "register the filter with `CompilerOptions::with_filter`"
  | unterminatedInterpolation .. => some "close the interpolation with `\x7d`"
  | filterUnavailable .. =>
      some "install the dependency or register a replacement filter under the same name"
  | missingPartial .. => some "register the partial with `RenderContext::add_partial`"
  | undefinedMethod .. =>
      some "attach the template first with `CompiledTemplate::define_method`"
  | configParse .. =>
      some "check that hamlet.toml is valid TOML with [compiler] and/or [data] sections"
  | unsupportedFormat .. => some "supported formats: text, json, toml, yaml, yml, kdl, ini"
  | _ => none

def errorClass : Error → ErrorClass
  | inconsistentIndentation .. | mixedIndentation .. | illegalIndentation .. | illegalNesting ..
  | invalidTag .. | unknownShorthand .. | invalidFilterName .. | unknownFilter ..
  | attributeSyntax .. | unterminatedInterpolation .. => .parse
  | evaluation .. | filterUnavailable .. | missingPartial .. | undefinedMethod .. => .evaluation
  | io .. | configParse .. | dataFile .. | unsupportedFormat .. => .config

def location? : Error → Option Location
  | evaluation location _ => location
  | filterUnavailable _ _ location => location
  | missingPartial _ location => location
  | _ => none

/-- Gives a failure of evaluation its place, unless it has one: the innermost line keeps it. -/
def located (place : Location) : Error → Error
  | evaluation none message => evaluation (some place) message
  | filterUnavailable filter required none => filterUnavailable filter required (some place)
  | missingPartial name none => missingPartial name (some place)
  | e => e

def line? : Error → Option Nat
  | inconsistentIndentation line _ | mixedIndentation line | illegalIndentation line _
  | illegalNesting line _ | invalidTag line _ | unknownShorthand line _
  | invalidFilterName line _ | unknownFilter line _ | attributeSyntax line _
  | unterminatedInterpolation line => some line
  | e => e.location?.map Location.line

def atLine (line : Nat) (text : String) : String := "line " ++ toString line ++ ": " ++ text

def message : Error → String
  | io reason => reason
  | inconsistentIndentation line jump => atLine line ("inconsistent indentation: " ++ jump.text)
  | mixedIndentation line => atLine line "indentation can't use both tabs and spaces"
  | illegalIndentation line fault => atLine line ("illegal indentation: " ++ fault.text)
  | illegalNesting line fault => atLine line ("illegal nesting: " ++ fault.text)
  | invalidTag line tag => atLine line ("invalid tag: `" ++ tag ++ "`")
  | unknownShorthand line sigil =>
      atLine line ("illegal element: `" ++ toString sigil ++
        "` must be followed by a class or id name")
  | invalidFilterName line name => atLine line ("invalid filter name `" ++ name ++ "`")
  | unknownFilter line name => atLine line ("filter `" ++ name ++ "` is not defined")
  | attributeSyntax line fault => atLine line ("invalid attribute list: " ++ fault.text)
  | unterminatedInterpolation line => atLine line "unterminated interpolation `#\x7b`"
  | evaluation _ message => message
  | filterUnavailable filter required _ =>
      "can't run `" ++ filter ++ "` filter; required `" ++ required ++ "` not found"
  | missingPartial name _ => "partial `" ++ name ++ "` is not registered"
  | undefinedMethod name => "no compiled method named `" ++ name ++ "`"
  | configParse fault => "failed to parse config file: " ++ fault.text
  | dataFile path fault => "failed to load data file `" ++ path ++ "`: " ++ fault.text
  | unsupportedFormat format => "unsupported data file format: `" ++ format ++ "`"

def display (e : Error) : String :=
  match e.location? with
  | some place => e.message ++ " at " ++ place.text
  | none => e.message

theorem located_of_location {e : Error} {place : Location} (h : e.location? = some place)
    (other : Location) : e.located other = e := by
  cases e <;> simp_all [location?, located]

theorem location?_located {e : Error} (h : e.errorClass = .evaluation)
    (hm : ∀ name, e ≠ undefinedMethod name) (place : Location) :
    (e.located place).location? = some (e.location?.getD place) := by
  cases e with
  | evaluation location _ => cases location <;> rfl
  | filterUnavailable _ _ location => cases location <;> rfl
  | missingPartial _ location => cases location <;> rfl
  | undefinedMethod name => exact absurd rfl (hm name)
  | _ => simp [errorClass] at h

theorem message_located (e : Error) (place : Location) : (e.located place).message = e.message := by
  cases e with
  | evaluation location _ => cases location <;> rfl
  | filterUnavailable _ _ location => cases location <;> rfl
  | missingPartial _ location => cases location <;> rfl
  | _ => rfl

theorem code_located (e : Error) (place : Location) : (e.located place).code = e.code := by
  cases e with
  | evaluation location _ => cases location <;> rfl
  | filterUnavailable _ _ location => cases location <;> rfl
  | missingPartial _ location => cases location <;> rfl
  | _ => rfl

end Error

end Haml
