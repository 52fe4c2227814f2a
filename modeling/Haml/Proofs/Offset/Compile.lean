import Haml.Compile
import Haml.Proofs.Offset.Documents
/-! Compilation by offsets. Each text, range and item that is cut out of a source exists, and each
difference, product and quotient is defined, so that a source is compiled or refused. -/

namespace Haml.Offset

section Compilation

variable (o : Options)

def total {α : Type} (x : Except Error α) : Run α := ExceptT.mk (some x)

def textParts (text : String) (line : Nat) : Run Compile.TextParts :=
  if (Text.splitOnce ['#', '{'] text.toList).isNone then return .fixed text
  else do
    let segments ← split line text.toList
    if Compile.hasExpression segments && !o.suppressEval then return .interpolated segments
    else return .fixed (String.join (Compile.literals segments))

def textLine (depth : Nat) (text : String) (line : Nat) : Run Instruction := do
  match ← textParts o text line with
  | .fixed text => return .text depth text
  | .interpolated segments => return .interpolated depth segments o.escapeHtml line

def content (t : Tag) (line : Nat) : Run ElementContent :=
  match t.content with
  | some (.text text) => do
      match ← textParts o text line with
      | .fixed text => return .text text
      | .interpolated segments => return .interpolated segments o.escapeHtml
  | _ => total (Compile.content o t line)

mutual

def node (depth : Nat) : Node → Run (List Instruction)
  | ⟨.tag t, line, children⟩ => do
      let compiled ← total (Compile.tag o t line)
      if children.isEmpty then
        let content ← content o t line
        return [.element depth compiled content line]
      else
        let inner ← nodes (Compile.innerDepth t depth) children
        return .openTag depth compiled line ::
          inner ++ [.closeTag depth t.name t.trimInner t.trimOuter]
  | ⟨.text text, line, _⟩ => do
      let instruction ← textLine o depth text line
      return [instruction]
  | ⟨.script code, line, children⟩ => do
      let body ← nodes depth children
      return if o.suppressEval then body else [.script code line body]
  | ⟨.comment ⟨condition, none⟩, _, children⟩ => do
      let inner ← nodes (depth + 1) children
      return .text depth (Compile.commentStart ⟨condition, none⟩) ::
        inner ++ [.text depth (Compile.commentEnd ⟨condition, none⟩)]
  | n => total (Compile.node o depth n)

def nodes (depth : Nat) : List Node → Run (List Instruction)
  | [] => return []
  | n :: rest => do
      let first ← node depth n
      let later ← nodes depth rest
      return first ++ later

end

/-- Compiles a source, where a width is at most `bound`. -/
def compile (bound : Nat) (source : String) : Run Template := do
  let forest ← read bound o.indentUnit source
  let instructions ← nodes o 0 forest
  return ⟨o.templateId, instructions, o.renderSettings⟩

end Compilation

section Agreement

variable {o : Options}

theorem total_agrees {α : Type} (x : Except Error α) : Agrees Eq (total x) x := by
  cases x with
  | ok a => exact .ok rfl
  | error e => exact .error e

theorem textParts_agrees (o : Options) (text : String) (line : Nat) :
    Agrees Eq (textParts o text line) (Compile.textParts o text line) := by
  unfold textParts Compile.textParts
  split
  · exact .ok rfl
  · have read := split_agrees line text.toList
    cases found : Interpolation.split text.toList with
    | none =>
        rw [found] at read
        exact read.bind_error
    | some segments =>
        rw [found] at read
        refine read.bind_ok ?_
        rintro _ rfl
        dsimp only
        split
        · exact .ok rfl
        · exact .ok rfl

theorem textLine_agrees (o : Options) (depth : Nat) (text : String) (line : Nat) :
    Agrees Eq (textLine o depth text line) (Compile.textLine o depth text line) := by
  refine (textParts_agrees o text line).bind ?_
  rintro parts _ - rfl
  cases parts with
  | fixed text => exact .ok rfl
  | interpolated segments => exact .ok rfl

theorem content_agrees (o : Options) (t : Tag) (line : Nat) :
    Agrees Eq (content o t line) (Compile.content o t line) := by
  unfold content
  split
  · next text written =>
      rw [Compile.content, written]
      refine (textParts_agrees o text line).bind ?_
      rintro parts _ - rfl
      cases parts with
      | fixed text => exact .ok rfl
      | interpolated segments => exact .ok rfl
  · exact total_agrees _

mutual

theorem node_agrees (o : Options) (depth : Nat) :
    (n : Node) → Agrees Eq (node o depth n) (Compile.node o depth n)
  | ⟨.tag t, line, children⟩ => by
      rw [node, Compile.node]
      refine (total_agrees _).bind ?_
      rintro compiled _ - rfl
      split
      · refine (content_agrees o t line).bind ?_
        rintro content _ - rfl
        exact .ok rfl
      · refine (nodes_agrees o _ children).bind ?_
        rintro inner _ - rfl
        exact .ok rfl
  | ⟨.text text, line, _⟩ => by
      rw [node, Compile.node]
      refine (textLine_agrees o depth text line).bind ?_
      rintro instruction _ - rfl
      exact .ok rfl
  | ⟨.script code, line, children⟩ => by
      rw [node, Compile.node]
      refine (nodes_agrees o depth children).bind ?_
      rintro body _ - rfl
      exact .ok rfl
  | ⟨.comment ⟨condition, none⟩, _, children⟩ => by
      rw [node, Compile.node]
      refine (nodes_agrees o (depth + 1) children).bind ?_
      rintro inner _ - rfl
      exact .ok rfl
  | ⟨.comment ⟨_, some _⟩, _, _⟩ | ⟨.output .., _, _⟩ | ⟨.silentComment, _, _⟩
  | ⟨.filter .., _, _⟩ | ⟨.doctype _, _, _⟩ => by
      simp only [node]
      exact total_agrees _

theorem nodes_agrees (o : Options) (depth : Nat) :
    (ns : List Node) → Agrees Eq (nodes o depth ns) (Compile.nodes o depth ns)
  | [] => by
      rw [nodes, Compile.nodes]
      exact .ok rfl
  | n :: rest => by
      rw [nodes, Compile.nodes]
      refine (node_agrees o depth n).bind ?_
      rintro first _ - rfl
      refine (nodes_agrees o depth rest).bind ?_
      rintro later _ - rfl
      exact .ok rfl

end

end Agreement

/-- A source is compiled or refused without a step that is undefined. A width never exceeds the
bytes of the source. -/
theorem compile_defined {bound : Nat} {source : String} (fits : source.utf8ByteSize ≤ bound)
    (o : Options) : (compile o bound source).run = some (Template.compile source o) := by
  apply Agrees.run_eq
  refine (read_agrees fits o.indentUnit).bind ?_
  rintro forest _ - rfl
  refine (nodes_agrees o 0 forest).bind ?_
  rintro instructions _ - rfl
  exact .ok rfl

theorem compile_defined_widest :
    "-#\n  ü\n%p(title='é')".utf8ByteSize ≤ UInt64.size - 1 ∧
      (compile { Options.standard with indentUnit := .spaces (UInt64.size - 1) } (UInt64.size - 1)
        "-#\n  ü\n%p(title='é')").run =
      some (Template.compile "-#\n  ü\n%p(title='é')"
        { Options.standard with indentUnit := .spaces (UInt64.size - 1) }) :=
  ⟨by decide, compile_defined (by decide) _⟩

end Haml.Offset
