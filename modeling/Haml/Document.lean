import Haml.Line
import Haml.Tag
/-! Documents: the forest of nodes that the lines of a source stand for. -/

namespace Haml

/-- A node's kind with the lines below that belong to it, and the document's unit after them. -/
structure Header where
  kind : NodeKind
  taken : Nat
  unit : Option Indent

namespace Header

def nonEmpty (cs : List Char) : Option String :=
  if cs.isEmpty then none else some (String.ofList cs)

def comment (rest : List Char) : Comment :=
  match rest with
  | '[' :: inner =>
      match Text.splitOnce [']'] inner with
      | some (condition, text) => ⟨some (String.ofList condition), nonEmpty (Text.trim text)⟩
      | none => ⟨none, nonEmpty rest⟩
  | _ => ⟨none, nonEmpty rest⟩

def isFilterChar (c : Char) : Bool := c.isAlphanum || c == '_' || c == '-'

def output (code : List Char) (escaping : Escaping) : NodeKind :=
  .output (String.ofList (Text.trim code)) escaping

/-- Reads the node of a line. Raw blocks and the hashes of a tag may take lines below. -/
def read (unit : Option Indent) (line : Line) (below : List (List Char)) : Except Error Header :=
  let alone (kind : NodeKind) : Except Error Header := .ok ⟨kind, 0, unit⟩
  match line.sigil with
  | .tag | .cssClass | .cssId => do
      let (tag, rest) ← Tag.read line.number line.text below
      return ⟨.tag tag, below.length - rest.length, unit⟩
  | .output => alone (output (line.text.drop 1) .standard)
  | .escapedOutput => alone (output (line.text.drop 2) .always)
  | .unescapedOutput => alone (output (line.text.drop 2) .never)
  | .script => alone (.script (String.ofList (Text.trim (line.text.drop 1))))
  | .silentComment => .ok ⟨.silentComment, Line.skipCount unit line.depth below, unit⟩
  | .doctype => alone (.doctype (String.ofList (Text.trim (line.text.drop 3))))
  | .comment => alone (.comment (comment (Text.trim (line.text.drop 1))))
  | .filter =>
      let name := line.text.drop 1
      if name.isEmpty || !name.all isFilterChar then
        .error (.invalidFilterName line.number (String.ofList name))
      else do
        let block ← Line.takeBlock unit line.depth (line.number + 1) below
        let body := String.ofList (List.intercalate ['\n'] block.lines)
        return ⟨.filter (String.ofList name) body, block.taken, block.unit⟩
  | .escape => alone (.text (String.ofList (line.text.drop 1)))
  | .plain => alone (.text (String.ofList line.text))

end Header

/-- The forest so far: finished trees, and the open nodes from the latest line up to its root. -/
structure Outline where
  roots : Forest
  path : List Node

namespace Outline

def empty : Outline := ⟨[], []⟩

def close (o : Outline) : Outline :=
  match o.path with
  | [] => o
  | [node] => ⟨o.roots ++ [node], []⟩
  | node :: parent :: path => ⟨o.roots, parent.addChild node :: path⟩

def closeTo (depth : Nat) (o : Outline) : Outline :=
  Nat.repeat close (o.path.length - depth) o

def descend (o : Outline) (depth line : Nat) : Except Error Outline :=
  if o.path.length < depth then
    .error (.inconsistentIndentation line
      (if o.path.isEmpty then .atStart else .levels (depth + 1 - o.path.length)))
  else
    let o := o.closeTo depth
    match o.path.head?.bind fun parent => parent.kind.nestingFault? with
    | some fault => .error (.illegalNesting line fault)
    | none => .ok o

def push (o : Outline) (node : Node) : Outline := { o with path := node :: o.path }

def finish (o : Outline) : Forest := (o.closeTo 0).roots

end Outline

namespace Document

/-- Reads the physical lines from `number` on, the first `taken` of which belong to a node above. -/
def readLines (unit : Option Indent) (outline : Outline) (number : Nat) :
    Nat → List (List Char) → Except Error Forest
  | _, [] => .ok outline.finish
  | taken + 1, _ :: below => readLines unit outline (number + 1) taken below
  | 0, raw :: below =>
      if Text.allBlank raw then readLines unit outline (number + 1) 0 below
      else do
        let (line, unit) ← Line.read unit number raw
        let outline ← outline.descend line.depth number
        let header ← Header.read unit line below
        readLines header.unit (outline.push ⟨header.kind, number, []⟩) (number + 1) header.taken
          below

def read (unit : IndentUnit) (source : String) : Except Error Forest :=
  readLines (Indent.preset unit) .empty 1 0 (Text.physicalLines source.toList)

end Document

end Haml
