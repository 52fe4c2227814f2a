import Haml.Doctype
import Haml.Document
import Haml.Template
/-! Compilation: the instructions that the nodes of a document stand for. -/

namespace Haml

namespace Compile

section

variable (o : Options)

def escapes : Escaping → Bool
  | .standard => o.escapeHtml
  | .always => true
  | .never => false

/-- A text with what a render has to fill in, if anything. -/
inductive TextParts where
  | fixed (text : String)
  | interpolated (segments : List Segment)

def literals : List Segment → List String
  | [] => []
  | .literal text :: rest => text :: literals rest
  | .expression _ :: rest => literals rest

def hasExpression (segments : List Segment) : Bool :=
  segments.any fun
    | .expression _ => true
    | .literal _ => false

def textParts (text : String) (line : Nat) : Except Error TextParts :=
  if (Text.splitOnce ['#', '{'] text.toList).isNone then .ok (.fixed text)
  else
    match Interpolation.split text.toList with
    | none => .error (.unterminatedInterpolation line)
    | some segments =>
        if hasExpression segments && !o.suppressEval then .ok (.interpolated segments)
        else .ok (.fixed (String.join (literals segments)))

def textLine (depth : Nat) (text : String) (line : Nat) : Except Error Instruction := do
  match ← textParts o text line with
  | .fixed text => return .text depth text
  | .interpolated segments => return .interpolated depth segments o.escapeHtml line

def checkEntry (line : Nat) (entry : AttributeEntry) : Except Error Unit :=
  match o.syntaxCheck with
  | none => .ok ()
  | some check =>
      entry.expressions.forM fun code =>
        (check code).mapError fun reason => .attributeSyntax line (.badExpression code reason)

def addEntry (line : Nat) (known : AttributeSet × List AttributeEntry) (entry : AttributeEntry) :
    Except Error (AttributeSet × List AttributeEntry) :=
  match entry with
  | .fixed name value => .ok (known.1.merge name value, known.2)
  | entry =>
      if o.suppressEval then .ok known
      else do
        checkEntry o line entry
        return (known.1, known.2 ++ [entry])

def tag (t : Tag) (line : Nat) : Except Error CompiledTag := do
  let (attributes, computed) ← t.attributes.foldlM (addEntry o line) (AttributeSet.empty, [])
  return ⟨t.name, attributes, computed, t.trimOuter, t.trimInner⟩

def content (t : Tag) (line : Nat) : Except Error ElementContent :=
  match t.content with
  | none => .ok (if t.selfClosing || o.closesItself t.name then .selfClosing else .empty)
  | some (.text text) => do
      match ← textParts o text line with
      | .fixed text => return .text text
      | .interpolated segments => return .interpolated segments o.escapeHtml
  | some (.output code escaping) =>
      .ok (if o.suppressEval then .empty else .output code (escapes o escaping))

def commentStart (c : Comment) : String :=
  match c.condition with
  | some condition => "<!--[" ++ condition ++ "]>"
  | none => "<!--"

def commentEnd (c : Comment) : String := if c.condition.isSome then "<![endif]-->" else "-->"

def filter (name : String) (line : Nat) : Except Error Filter :=
  match o.filters.find? name with
  | some filter => .ok filter
  | none => .error (.unknownFilter line name)

def innerDepth (t : Tag) (depth : Nat) : Nat := if t.trimInner then depth else depth + 1

mutual

def node (depth : Nat) : Node → Except Error (List Instruction)
  | ⟨.tag t, line, children⟩ => do
      let compiled ← tag o t line
      if children.isEmpty then return [.element depth compiled (← content o t line) line]
      else
        let inner ← nodes (innerDepth t depth) children
        return .openTag depth compiled line ::
          inner ++ [.closeTag depth t.name t.trimInner t.trimOuter]
  | ⟨.text text, line, _⟩ => do return [← textLine o depth text line]
  | ⟨.output code escaping, line, _⟩ =>
      .ok (if o.suppressEval then [] else [.output depth code (escapes o escaping) line])
  | ⟨.script code, line, children⟩ => do
      let body ← nodes depth children
      return if o.suppressEval then body else [.script code line body]
  | ⟨.comment c, _, children⟩ =>
      match c.text with
      | some text => .ok [.text depth (commentStart c ++ " " ++ text ++ " " ++ commentEnd c)]
      | none => do
          let inner ← nodes (depth + 1) children
          return .text depth (commentStart c) :: inner ++ [.text depth (commentEnd c)]
  | ⟨.silentComment, _, _⟩ => .ok []
  | ⟨.filter name body, line, _⟩ => do
      return [.filter depth name (← filter o name line) body line]
  | ⟨.doctype argument, _, _⟩ =>
      .ok ((Doctype.text? argument o.format o.attributeWrapper).map (.text depth ·)).toList

def nodes (depth : Nat) : List Node → Except Error (List Instruction)
  | [] => .ok []
  | n :: rest => do
      let first ← node depth n
      return first ++ (← nodes depth rest)

end

end

end Compile

def Options.renderSettings (o : Options) : RenderSettings :=
  ⟨o.escapeAttributes, o.attributeWrapper, o.format.isHtml⟩

def Forest.compile (forest : Forest) (o : Options) : Except Error Template := do
  return ⟨o.templateId, ← Compile.nodes o 0 forest, o.renderSettings⟩

def Template.compile (source : String) (o : Options) : Except Error Template := do
  (← Document.read o.indentUnit source).compile o

end Haml
