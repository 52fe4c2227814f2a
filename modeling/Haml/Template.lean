import Haml.Filter
import Haml.Node
/-! Templates: the instructions a document is compiled to. -/

namespace Haml

/-- A tag with its attributes merged as far as they are known. -/
structure CompiledTag where
  name : String
  attributes : AttributeSet
  /-- The attributes that a render computes, merged in this order over the known ones. -/
  computed : List AttributeEntry
  trimOuter : Bool
  trimInner : Bool
  deriving DecidableEq, Repr

/-- What stands between the tags of an element without nested lines. -/
inductive ElementContent where
  | empty
  | selfClosing
  | text (text : String)
  | interpolated (segments : List Segment) (escape : Bool)
  | output (code : String) (escape : Bool)
  deriving DecidableEq, Repr

/-- One step of a render. `depth` is the nesting of the output, `line` the template line that a
failure is attributed to. -/
inductive Instruction where
  | text (depth : Nat) (text : String)
  | interpolated (depth : Nat) (segments : List Segment) (escape : Bool) (line : Nat)
  | output (depth : Nat) (code : String) (escape : Bool) (line : Nat)
  | element (depth : Nat) (tag : CompiledTag) (content : ElementContent) (line : Nat)
  | openTag (depth : Nat) (tag : CompiledTag) (line : Nat)
  | closeTag (depth : Nat) (name : String) (trimInner trimOuter : Bool)
  | script (code : String) (line : Nat) (body : List Instruction)
  | filter (depth : Nat) (name : String) (filter : Filter) (text : String) (line : Nat)

def Instruction.line? : Instruction → Option Nat
  | interpolated _ _ _ line | output _ _ _ line | element _ _ _ line | openTag _ _ line
  | script _ line _ | filter _ _ _ _ line => some line
  | text .. | closeTag .. => none

structure RenderSettings where
  escapeAttributes : Bool
  attributeWrapper : Char
  html : Bool
  deriving DecidableEq, Repr

/-- A document compiled once, to be rendered any number of times. -/
structure Template where
  /-- The name shown in the places of failures. -/
  id : String
  instructions : List Instruction
  settings : RenderSettings

end Haml
