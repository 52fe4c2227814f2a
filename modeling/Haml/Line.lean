import Haml.Error
import Haml.Text.Lines
/-! Template lines: their depth of nesting, what their first characters select, and the raw blocks
below them. -/

namespace Haml

/-- What the first characters of a line make of it. -/
inductive Sigil where
  | tag
  | cssClass
  | cssId
  | output
  | escapedOutput
  | unescapedOutput
  | script
  | silentComment
  | doctype
  | comment
  | filter
  | escape
  | plain
  deriving DecidableEq, Repr

namespace Sigil

def classify : List Char → Sigil
  | '!' :: '!' :: '!' :: _ => doctype
  | '!' :: '=' :: _ => unescapedOutput
  | '&' :: '=' :: _ => escapedOutput
  | '-' :: '#' :: _ => silentComment
  | '-' :: _ => script
  | '=' :: _ => output
  | '%' :: _ => tag
  | '.' :: _ => cssClass
  | '#' :: '{' :: _ => plain
  | '#' :: _ => cssId
  | '/' :: _ => comment
  | ':' :: _ => filter
  | '\\' :: _ => escape
  | _ => plain

end Sigil

/-- A line that is not blank: its number, counted from one, its depth, and its text without the
white space around it. -/
structure Line where
  number : Nat
  depth : Nat
  text : List Char
  deriving DecidableEq, Repr

def Line.sigil (l : Line) : Sigil := .classify l.text

namespace Indent

/-- The depth that leading white space stands for, and the unit of the document from here on. The
first indented line settles the unit. -/
def measure (unit : Option Indent) (lead : List Char) (line : Nat) :
    Except Error (Nat × Option Indent) :=
  let tabs := lead.countP (· == '\t')
  let count := lead.length - tabs
  if lead.isEmpty then .ok (0, unit)
  else if 0 < tabs && 0 < count then .error (.mixedIndentation line)
  else
    let found := if 0 < tabs then tab else spaces count
    match unit, found with
    | none, tab => .ok (tabs, some tab)
    | none, spaces n => .ok (1, some (spaces n))
    | some tab, tab => .ok (tabs, some tab)
    | some (spaces width), spaces n =>
        if n % width = 0 then .ok (n / width, unit)
        else .error (.illegalIndentation line (.notMultiple n width))
    | some expected, found => .error (.illegalIndentation line (.mismatch found expected))

end Indent

namespace Line

def read (unit : Option Indent) (number : Nat) (raw : List Char) :
    Except Error (Line × Option Indent) := do
  let (depth, unit) ← Indent.measure unit (raw.takeWhile Text.isIndent) number
  return (⟨number, depth, Text.trimEnd (raw.dropWhile Text.isIndent)⟩, unit)

/-- A raw block: its lines without the block's indentation, how many physical lines it takes, and
the unit of the document after it. -/
structure Block where
  lines : List (List Char)
  taken : Nat
  unit : Option Indent
  deriving DecidableEq, Repr

def blockLines (lead : List Char) : List (List Char) → List (List Char)
  | [] => []
  | raw :: below =>
      if Text.allBlank raw then [] :: blockLines lead below
      else
        match lead.isPrefixOf? raw with
        | some rest => rest :: blockLines lead below
        | none => []

def dropBlankEnd (lines : List (List Char)) : List (List Char) :=
  (lines.reverse.dropWhile List.isEmpty).reverse

/-- The lines nested deeper than `depth` right below, `next` being the number of the first line
there. Relative indentation and inner blank lines stay. -/
def takeBlock (unit : Option Indent) (depth next : Nat) (below : List (List Char)) :
    Except Error Block :=
  match below.dropWhile Text.allBlank with
  | [] => .ok ⟨[], 0, unit⟩
  | first :: _ =>
      let lead := first.takeWhile Text.isIndent
      let line := next + (below.takeWhile Text.allBlank).length
      if lead.isEmpty then .ok ⟨[], 0, unit⟩
      else do
        let (measured, settled) ← Indent.measure unit lead line
        if measured ≤ depth then return ⟨[], 0, unit⟩
        else if depth + 1 < measured then
          .error (.inconsistentIndentation line (.levels (measured - depth)))
        else
          let lines := blockLines lead below
          return ⟨dropBlankEnd lines, lines.length, settled⟩

/-- Whether a physical line ends a skipped block whose header is `width` characters deep. -/
def endsSkip (width : Nat) (raw : List Char) : Bool :=
  !(raw.dropWhile Text.isIndent).isEmpty && (raw.takeWhile Text.isIndent).length ≤ width

def skipCount (unit : Option Indent) (depth : Nat) (below : List (List Char)) : Nat :=
  (below.takeWhile fun raw => !endsSkip (Indent.width unit depth) raw).length

end Line

end Haml
