import Haml.Compile
import Haml.Proofs.Outcome
import Haml.Proofs.Redrawn
import Haml.Proofs.Visible
/-! Trims: what a template renders without them differs in white space only. Both renders are those of
one list of instructions, which stand at the left margin and trim nothing. -/

namespace Haml

def Tag.untrimmed (t : Tag) : Tag := { t with trimOuter := false, trimInner := false }

def NodeKind.untrimmed : NodeKind → NodeKind
  | .tag t => .tag t.untrimmed
  | kind => kind

mutual

def Node.untrimmed : Node → Node
  | ⟨kind, line, children⟩ => ⟨kind.untrimmed, line, Forest.untrimmed children⟩

def Forest.untrimmed : Forest → Forest
  | [] => []
  | n :: rest => n.untrimmed :: Forest.untrimmed rest

end

theorem Forest.isEmpty_untrimmed (ns : Forest) : (Forest.untrimmed ns).isEmpty = ns.isEmpty := by
  cases ns <;> rfl

def CompiledTag.untrimmed (t : CompiledTag) : CompiledTag :=
  { t with trimOuter := false, trimInner := false }

/-- The instruction at the left margin, without trims. -/
def Instruction.flat : Instruction → Instruction
  | .text _ raw => .text 0 raw
  | .interpolated _ segments escape line => .interpolated 0 segments escape line
  | .output _ code escape line => .output 0 code escape line
  | .element _ tag content line => .element 0 tag.untrimmed content line
  | .openTag _ tag line => .openTag 0 tag.untrimmed line
  | .closeTag _ name _ _ => .closeTag 0 name false false
  | .script code line body => .script code line body
  | .filter _ name convert raw line => .filter 0 name convert raw line

open Instruction (Redraws flat redrawn redrawnAll redrawnAll_append)

theorem Instruction.redraws_flat : Redraws flat where
  writes i writes code line body same := by
    cases i with
    | script code line body => exact absurd rfl (writes code line body)
    | _ => cases same
  line i _ := by cases i <;> rfl

namespace Compile

variable {o : Options}

theorem tag_untrimmed (o : Options) (t : Tag) (line : Nat) :
    tag o t.untrimmed line = CompiledTag.untrimmed <$> tag o t line :=
  bind_same _ fun _ => rfl

abbrev SameFlat (is js : List Instruction) : Prop := redrawnAll flat is = redrawnAll flat js

theorem sameFlat_enclosed {first first' last last' : Instruction} {inner inner' : List Instruction}
    (start : first.redrawn flat = first'.redrawn flat) (inside : SameFlat inner inner')
    (stop : last.redrawn flat = last'.redrawn flat) :
    SameFlat (first :: inner ++ [last]) (first' :: inner' ++ [last']) := by
  unfold SameFlat at inside ⊢
  simp only [List.cons_append, redrawnAll, redrawnAll_append, start, inside, stop]

theorem textLine_inStep (depth depth' : Nat) (text : String) (line : Nat) :
    InStep (fun i j => SameFlat [i] [j]) (textLine o depth text line)
      (textLine o depth' text line) := by
  refine (InStep.same (R := Eq) (fun _ => rfl) (textParts o text line)).bind ?_
  rintro parts _ rfl
  cases parts with
  | fixed text => exact .ok rfl
  | interpolated segments => exact .ok rfl

/-- Trims change depths and trims of the instructions that nodes are compiled to, and nothing else,
whatever depths the nodes are compiled at. -/
theorem untrimmed_inStep (o : Options) :
    (∀ depth n, ∀ depth', InStep SameFlat (node o depth n) (node o depth' n.untrimmed)) ∧
      ∀ depth ns, ∀ depth', InStep SameFlat (nodes o depth ns)
        (nodes o depth' (Forest.untrimmed ns)) := by
  have both := node.mutual_induct
    (fun depth n => ∀ depth', InStep SameFlat (node o depth n) (node o depth' n.untrimmed))
    (fun depth ns => ∀ depth', InStep SameFlat (nodes o depth ns)
      (nodes o depth' (Forest.untrimmed ns)))
    ?tag ?text ?output ?script ?inlineComment ?comment ?silentComment ?filter ?doctype ?nil ?cons
  · exact both
  case tag =>
    intro depth t line children ih depth'
    rw [Node.untrimmed, NodeKind.untrimmed, node, node, Forest.isEmpty_untrimmed, tag_untrimmed]
    have compiled : InStep (fun a b => b = a.untrimmed) (tag o t line)
        (CompiledTag.untrimmed <$> tag o t line) := by
      cases tag o t line with
      | error e => exact .error e
      | ok compiled => exact .ok rfl
    refine compiled.bind ?_
    rintro compiled _ rfl
    refine .ite ?_ ?_
    · refine (InStep.same (R := Eq) (fun _ => rfl) (content o t line)).bind ?_
      rintro inner _ rfl
      exact .ok rfl
    · refine (ih (innerDepth t.untrimmed depth')).bind fun inner inner' same => ?_
      exact .ok (sameFlat_enclosed rfl same rfl)
  case text =>
    intro depth text line children depth'
    dsimp only [Node.untrimmed, NodeKind.untrimmed]
    rw [node, node]
    exact (textLine_inStep depth depth' text line).bind fun _ _ same => .ok same
  case output =>
    intro depth code escaping line children depth'
    dsimp only [Node.untrimmed, NodeKind.untrimmed]
    rw [node, node]
    split
    · exact .ok rfl
    · exact .ok rfl
  case script =>
    intro depth code line children ih depth'
    dsimp only [Node.untrimmed, NodeKind.untrimmed]
    rw [node, node]
    refine (ih depth').bind fun body body' same => ?_
    split
    · exact .ok same
    · exact .ok (congrArg (fun body => [Instruction.script code line body]) same)
  case inlineComment =>
    intro depth c line children text written depth'
    dsimp only [Node.untrimmed, NodeKind.untrimmed]
    rw [node, node, written]
    exact .ok rfl
  case comment =>
    intro depth c line children bare ih depth'
    dsimp only [Node.untrimmed, NodeKind.untrimmed]
    rw [node, node, bare]
    exact (ih (depth' + 1)).bind fun _ _ same => .ok (sameFlat_enclosed rfl same rfl)
  case silentComment =>
    intro depth line children depth'
    dsimp only [Node.untrimmed, NodeKind.untrimmed]
    rw [node, node]
    exact .ok rfl
  case filter =>
    intro depth name body line children depth'
    dsimp only [Node.untrimmed, NodeKind.untrimmed]
    rw [node, node]
    refine (InStep.same (R := Eq) (fun _ => rfl) (filter o name line)).bind ?_
    rintro f _ rfl
    exact .ok rfl
  case doctype =>
    intro depth argument line children depth'
    dsimp only [Node.untrimmed, NodeKind.untrimmed]
    rw [node, node]
    cases Doctype.text? argument o.format o.attributeWrapper with
    | none => exact .ok rfl
    | some text => exact .ok rfl
  case nil =>
    intro depth depth'
    exact .ok rfl
  case cons =>
    intro depth n rest here others depth'
    rw [Forest.untrimmed, nodes, nodes]
    refine (here depth').bind fun first first' same => ?_
    refine (others depth').bind fun more more' sameMore => .ok ?_
    rw [SameFlat, redrawnAll_append, redrawnAll_append, same, sameMore]

end Compile

open Text (visible visible_append)

namespace Render

/-- Outputs that differ in white space only. -/
def SameVisible (b b' : Buffer) : Prop := visible b'.text = visible b.text

variable {e : Evaluator} {settings : RenderSettings}

theorem redrawable_flat (i : Instruction) (p : Progress) :
    Redrawable e settings flat SameVisible i p := by
  intro _ b same
  have line (depth : Nat) (text : List Char) :
      SameVisible (p.buffer.line depth text) (b.line 0 text) := by
    rw [SameVisible, Buffer.visible_line, Buffer.visible_line, same]
  have lines (depth : Nat) (text : List Char) :
      SameVisible (p.buffer.lines depth text) (b.lines 0 text) := by
    rw [SameVisible, Buffer.visible_lines, Buffer.visible_lines, same]
  cases i with
  | text depth text => exact ⟨rfl, line depth text.toList⟩
  | interpolated depth segments escape at_ =>
      exact writeWith_related same _ fun text _ => lines depth text
  | output depth code escape at_ => exact writeWith_related same _ fun text _ => lines depth text
  | filter depth name filter text at_ =>
      exact writeWith_related same _ fun text _ => lines depth text
  | script code at_ body => exact ⟨rfl, same⟩
  | closeTag depth name trimInner trimOuter =>
      refine ⟨rfl, ?_⟩
      simp only [write, flat, SameVisible, visible_glueIf, Buffer.visible_line]
      rw [same]
  | openTag depth tag at_ =>
      refine writeWith_related ?_ _ fun opened _ => ?_
      · rw [SameVisible, visible_glueIf, visible_glueIf, same]
      · simp only [SameVisible, visible_glueIf, Buffer.visible_line, CompiledTag.untrimmed]
        rw [same]
  | element depth tag inner at_ =>
      have parts : ((do
          let opened ← openTag e p.context settings tag.untrimmed
          return (opened, ← content e p.context inner)) : Except Error _) = do
            let opened ← openTag e p.context settings tag
            return (opened, ← content e p.context inner) := rfl
      simp only [write, flat, parts]
      generalize (do
        let opened ← openTag e p.context settings tag
        return (opened, ← content e p.context inner) : Except Error _) = texts
      cases texts with
      | error e =>
          refine ⟨rfl, ?_⟩
          rw [SameVisible, visible_glueIf, visible_glueIf, same]
      | ok texts =>
          refine ⟨rfl, ?_⟩
          simp only [SameVisible, visible_glueIf, visible_writeElement, CompiledTag.untrimmed]
          rw [same]

end Render

open Render

/-- What can be seen of a render: its visible characters, or how it has failed, and the context that
it leaves. -/
def Template.seen (t : Template) (e : Evaluator) (c : Context) :
    Except Error (List Char) × Context :=
  ((t.run e c).1.map fun text => visible text.toList, (t.run e c).2)

/-- What is seen of a render is seen of the flat instructions. -/
theorem Template.seen_eq (t : Template) (e : Evaluator) (c : Context) :
    t.seen e c =
      let ran := steps e t.id t.settings (redrawnAll flat t.instructions) .idle ⟨c, .empty⟩
      (ran.1.map fun _ => visible ran.2.buffer.text, ran.2.context) := by
  have ran := steps_redrawn e t.id t.settings (R := SameVisible) Instruction.redraws_flat
    t.instructions .idle ⟨c, .empty⟩ .empty rfl fun j q _ => redrawable_flat j q
  rw [Template.seen, Template.run]
  generalize steps e t.id t.settings t.instructions .idle ⟨c, .empty⟩ = x at ran
  generalize steps e t.id t.settings (redrawnAll flat t.instructions) .idle ⟨c, .empty⟩ = y at ran
  obtain ⟨outcome, p⟩ := x
  obtain ⟨outcome', q⟩ := y
  obtain ⟨same, context, seen⟩ := ran
  cases same
  dsimp only at context seen ⊢
  rw [context, seen]
  cases outcome with
  | error e => rfl
  | ok done => simp only [Except.map, String.toList_ofList]

/-- Trims change white space only: a forest and the one without its trims both fail to compile with
the same error, or both renders fail with the same error, or have the same visible characters; and
they leave the same context. -/
theorem Forest.run_untrimmed (forest : Forest) (o : Options) (e : Evaluator) (c : Context) :
    (forest.compile o).map (fun t => t.seen e c) =
      (Forest.compile (Forest.untrimmed forest) o).map fun t => t.seen e c := by
  have compiled := (Compile.untrimmed_inStep o).2 0 forest 0
  refine (compiled.bind (S := fun t u => t.seen e c = u.seen e c) fun is js flat => ?_).map_eq
    fun _ _ same => same
  refine .ok ?_
  rw [Template.seen_eq, Template.seen_eq]
  simp only [flat]

end Haml
