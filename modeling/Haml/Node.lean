import Haml.Attribute.Entry
/-! Template nodes: what each line of a template says, and the lines nested under it. -/

namespace Haml

inductive Escaping where
  /-- As the options say. -/
  | standard
  | always
  | never
  deriving DecidableEq, Repr

inductive InlineContent where
  | text (text : String)
  | output (code : String) (escaping : Escaping)
  deriving DecidableEq, Repr

structure Tag where
  name : String
  attributes : List AttributeEntry
  selfClosing : Bool
  /-- Written `>`: no white space around the element. -/
  trimOuter : Bool
  /-- Written `<`: no white space inside the element. -/
  trimInner : Bool
  content : Option InlineContent
  deriving DecidableEq, Repr

structure Comment where
  /-- The condition in brackets, without them. -/
  condition : Option String
  text : Option String
  deriving DecidableEq, Repr

inductive NodeKind where
  | tag (tag : Tag)
  | text (text : String)
  | script (code : String)
  | output (code : String) (escaping : Escaping)
  | comment (comment : Comment)
  | silentComment
  | filter (name body : String)
  | doctype (argument : String)
  deriving DecidableEq, Repr

def NodeKind.nestingFault? : NodeKind → Option NestingFault
  | text _ => some .plainText
  | output .. => some .outputLine
  | doctype _ => some .headerCommand
  | tag t =>
      if t.content.isSome then some .tagContent
      else if t.selfClosing then some .selfClosing
      else none
  | comment c => if c.text.isSome then some .commentText else none
  | filter .. | silentComment => some .rawBlock
  | script _ => none

structure Node where
  kind : NodeKind
  /-- Counted from one. -/
  line : Nat
  children : List Node
  deriving Repr

def Node.addChild (n child : Node) : Node := { n with children := n.children ++ [child] }

mutual

def Node.decEq : (m n : Node) → Decidable (m = n)
  | ⟨kind, line, children⟩, ⟨kind', line', children'⟩ =>
      have := Node.decEqAll children children'
      decidable_of_iff (kind = kind' ∧ line = line' ∧ children = children')
        (Iff.of_eq (Node.mk.injEq ..).symm)

def Node.decEqAll : (ms ns : List Node) → Decidable (ms = ns)
  | [], [] => isTrue rfl
  | [], _ :: _ | _ :: _, [] => isFalse nofun
  | m :: ms, n :: ns =>
      have := m.decEq n
      have := Node.decEqAll ms ns
      decidable_of_iff (m = n ∧ ms = ns) (Iff.of_eq (List.cons.injEq ..).symm)

end

instance : DecidableEq Node := Node.decEq

abbrev Forest := List Node

end Haml
