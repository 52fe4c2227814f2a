import Haml.Datum.Yaml.Cursor
/-! Blocks of text in YAML. -/

namespace Haml.Yaml

inductive Chomp where
  | strip
  | clip
  | keep
  deriving DecidableEq

structure BlockStyle where
  isFolded : Bool
  chomp : Chomp
  /-- The indentation beyond that of the parent, if it is given. -/
  indent : Option Nat

namespace BlockStyle

def chomp? (c : Char) : Option Chomp :=
  if c == '-' then some .strip else if c == '+' then some .keep else none

def indent? (c : Char) : Option Nat :=
  if c.isDigit && c != '0' then some (Decimal.digitValue c) else none

def ofMarks? (isFolded : Bool) : List Char → Option BlockStyle
  | [] => some ⟨isFolded, .clip, none⟩
  | [a] =>
      match chomp? a with
      | some m => some ⟨isFolded, m, none⟩
      | none => (indent? a).map fun n => ⟨isFolded, .clip, some n⟩
  | [a, b] => do
      let m ← (chomp? a).or (chomp? b)
      let n ← (indent? a).or (indent? b)
      return ⟨isFolded, m, some n⟩
  | _ => none

end BlockStyle

structure BlockText where
  text : List Char
  lineEnd : List Char
  emptyLines : List Char
  /-- Whether the latest line starts with a blank. -/
  isSpaced : Bool

namespace BlockText

def startsBlank (line : List Char) : Bool := (line.head?.map isBlank).getD false

/-- Adds a line. In a folded block a line end between two lines that start with no blank becomes a
blank, or gives way to the empty lines after it. -/
def addLine (isFolded : Bool) (b : BlockText) (line lineEnd emptyLines : List Char) : BlockText :=
  let joint :=
    if isFolded && b.lineEnd == ['\n'] && !b.isSpaced && !startsBlank line then
      if b.emptyLines.isEmpty then [' '] else []
    else b.lineEnd
  ⟨b.text ++ joint ++ b.emptyLines ++ line, lineEnd, emptyLines, startsBlank line⟩

def finish (chomp : Chomp) (b : BlockText) : List Char :=
  match chomp with
  | .strip => b.text
  | .clip => b.text ++ b.lineEnd
  | .keep => b.text ++ b.lineEnd ++ b.emptyLines

end BlockText

/-- Drops indentation and empty lines: their line ends, and the widest indentation. A tab may not
stand in the indentation. -/
def emptyLines (indent : Option Nat) : Nat → Cursor → Option (List Char × Nat × Cursor)
  | 0, _ => none
  | steps + 1, k =>
      let spaces := (k.rest.takeWhile (· == ' ')).length
      let k := k.skip (match indent with
        | some n => min spaces (n - k.column)
        | none => spaces)
      let isIndent := match indent with
        | some n => k.column < n
        | none => true
      match k.rest with
      | [] => some ([], k.column, k)
      | c :: _ =>
          if isIndent && c == '\t' then none
          else if isBreak c then
            (emptyLines indent steps k.next).map fun (ends, widest, after) =>
              (c :: ends, max k.column widest, after)
          else some ([], k.column, k)

def blockLines (isFolded : Bool) (indent : Nat) :
    Nat → BlockText → Cursor → Option (BlockText × Cursor)
  | 0, _, _ => none
  | steps + 1, b, k =>
      if k.column != indent || k.isDone then some (b, k)
      else do
        let (line, k) := k.takeWhile fun c => !isBreak c
        let (ends, _, after) ← emptyLines (some indent) (k.rest.length + 1) k.next
        blockLines isFolded indent steps (b.addLine isFolded line (k.rest.take 1) ends) after

/-- Reads a block of text after its sign; `parent` is the column of the collection around it. -/
def block (isFolded : Bool) (parent : Option Nat) (k : Cursor) :
    Option (List Char × Cursor) := do
  let (marks, k) := k.takeWhile fun c => c == '-' || c == '+' || c.isDigit
  let style ← BlockStyle.ofMarks? isFolded marks
  let k ← k.endOfLine
  let indent := style.indent.map (parent.getD 0 + ·)
  let (ends, widest, k) ← emptyLines indent (k.rest.length + 1) k
  let least := ((parent.map (· + 1)).getD 0).max 1
  let start : BlockText := ⟨[], [], ends, false⟩
  let (b, k) ← blockLines isFolded (indent.getD (max widest least)) (k.rest.length + 1) start k
  return (b.finish style.chomp, k)

end Haml.Yaml
