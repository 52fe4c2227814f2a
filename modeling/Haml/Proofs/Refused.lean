import Haml.Proofs.Located.Lines
import Haml.Proofs.Arrival
import Haml.Proofs.Refusal
/-! Refused sources: whatever keeps a source from being compiled names a line of it, and apart from
indentation that is the line of the node concerned. -/

namespace Haml

structure Error.OfLine (line : Nat) (e : Error) : Prop where
  parse : e.errorClass = .parse
  here : e.line? = some line

theorem Error.OfTag.ofLine {line : Nat} {e : Error} (ofTag : e.OfTag line) : e.OfLine line := by
  cases ofTag <;> exact ⟨rfl, rfl⟩

theorem Error.OfIndent.ofLine {line : Nat} {e : Error} (ofIndent : e.OfIndent line) :
    e.OfLine line := by
  cases ofIndent <;> exact ⟨rfl, rfl⟩

theorem Outline.descend_fails (o : Outline) (depth line : Nat) :
    Fails (Error.OfLine line) (o.descend depth line) := by
  unfold descend
  refine .ite (.error ⟨rfl, rfl⟩) ?_
  dsimp only
  split
  · exact .error ⟨rfl, rfl⟩
  · exact .ok _

namespace Document

/-- A node is refused at its line, or for the indentation of the first text below it. -/
theorem readNode_fails (unit : Option Indent) (o : Outline) (number : Nat) (raw : List Char)
    (below : List (List Char)) :
    Fails (fun e => e.OfLine number ∨
        ∃ line, Line.IsFirstText (number + 1) below line ∧ e.OfIndent line)
      (readNode unit o number raw below) := by
  intro e failed
  unfold readNode at failed
  cases read : Line.read unit number raw with
  | error reason =>
      rw [read] at failed
      cases failed
      exact .inl (Line.read_fails unit number raw e read).ofLine
  | ok p =>
      obtain ⟨line, settled⟩ := p
      rw [read] at failed
      have place : line.number = number := by
        obtain ⟨q, -, done⟩ := bind_ok read
        cases done
        rfl
      cases descends : o.descend line.depth number with
      | error reason =>
          simp only [bind, Except.bind, descends] at failed
          cases failed
          exact .inl (o.descend_fails line.depth number e descends)
      | ok next =>
          cases heads : Header.read settled line below with
          | error reason =>
              simp only [bind, Except.bind, descends, heads] at failed
              cases failed
              rw [← place]
              rcases Header.read_fails settled line below e heads with tag | ⟨name, rfl⟩ | indent
              · exact .inl tag.ofLine
              · exact .inl ⟨rfl, rfl⟩
              · exact .inr indent
          | ok header =>
              simp only [bind, Except.bind, descends, heads] at failed
              cases failed

variable {preset unit : Option Indent} {start rest : List (List Char)} {o : Outline} {number : Nat}

theorem Arrives.exists_drop (arrives : Arrives preset start unit o number rest) :
    ∃ i, number = i + 1 ∧ rest = start.drop i := by
  induction arrives with
  | start => exact ⟨0, rfl, rfl⟩
  | blank _ _ ih =>
      obtain ⟨i, rfl, below⟩ := ih
      refine ⟨i + 1, rfl, ?_⟩
      rw [← List.drop_drop, ← below, List.drop_one, List.tail_cons]
  | @node _ _ _ _ _ below _ header _ _ _ ih =>
      obtain ⟨i, rfl, here⟩ := ih
      refine ⟨i + 1 + header.taken, by omega, ?_⟩
      rw [← List.drop_drop, ← List.drop_drop, ← here, List.drop_one, List.tail_cons]

/-- Whether a document is refused at a line: reading arrives there, and the node on that line is
refused as `e` says. -/
def RefusedAt (preset : Option Indent) (start : List (List Char)) (number : Nat) (e : Error) :
    Prop :=
  ∃ unit o raw below, Arrives preset start unit o number (raw :: below) ∧
    Text.allBlank raw = false ∧ readNode unit o number raw below = .error e

def HasText (lines : List (List Char)) (number : Nat) : Prop :=
  1 ≤ number ∧ ∃ raw, lines[number - 1]? = some raw ∧ Text.allBlank raw = false

theorem hasText_of_drop {lines below : List (List Char)} {raw : List Char} {i : Nat}
    (drop : lines.drop i = raw :: below) (text : Text.allBlank raw = false) :
    HasText lines (i + 1) := by
  refine ⟨Nat.succ_pos i, raw, ?_, text⟩
  rw [Nat.add_sub_cancel, ← List.head?_drop, drop]
  rfl

theorem hasText_of_isFirstText {lines below : List (List Char)} {raw : List Char} {i line : Nat}
    (drop : lines.drop i = raw :: below) (first : Line.IsFirstText (i + 2) below line) :
    HasText lines line := by
  obtain ⟨text, others, found, rfl⟩ := first
  have place : lines.drop (i + 1 + (below.takeWhile Text.allBlank).length) = text :: others := by
    rw [← List.drop_drop, ← List.drop_drop, drop, List.drop_one, List.tail_cons, ← found]
    nth_rewrite 2 [← List.takeWhile_append_dropWhile (p := Text.allBlank) (l := below)]
    exact List.drop_left
  have blank : Text.allBlank text = false := by
    have heads := List.head?_dropWhile_not Text.allBlank below
    rw [found] at heads
    simpa using heads
  have here := hasText_of_drop place blank
  rw [show i + 2 + (below.takeWhile Text.allBlank).length =
    i + 1 + (below.takeWhile Text.allBlank).length + 1 by omega]
  exact here

/-- A document that cannot be read is refused at a line with text: by its indentation, or as the node
that starts there. -/
theorem readLines_fails {e : Error} (failed : readLines preset .empty 1 0 start = .error e) :
    e.errorClass = .parse ∧ ∃ number, e.line? = some number ∧ HasText start number ∧
      (e.OfIndent number ∨ RefusedAt preset start number e) := by
  obtain ⟨unit, o, number, raw, below, arrives, text, refused⟩ :=
    Arrives.start.exists_of_error failed
  obtain ⟨i, rfl, drop⟩ := arrives.exists_drop
  rcases readNode_fails unit o _ raw below e refused with ofLine | ⟨line, first, indent⟩
  · refine ⟨ofLine.parse, i + 1, ofLine.here, hasText_of_drop drop.symm text, .inr ?_⟩
    exact ⟨unit, o, raw, below, arrives, text, refused⟩
  · have found := hasText_of_isFirstText drop.symm first
    exact ⟨indent.ofLine.parse, line, indent.ofLine.here, found, .inl indent⟩

end Document

namespace Compile

variable (o : Options)

/-- Whether a node cannot be compiled: an attribute does not pass the check, an interpolation in its
text is not closed, or its filter is unknown. -/
inductive Refuses (e : Error) : Node → Prop
  | tag {t : Tag} {line : Nat} {children : List Node} :
      tag o t line = .error e → Refuses e ⟨.tag t, line, children⟩
  | content {t : Tag} {line : Nat} :
      content o t line = .error e → Refuses e ⟨.tag t, line, []⟩
  | text {text : String} {line depth : Nat} {children : List Node} :
      textLine o depth text line = .error e → Refuses e ⟨.text text, line, children⟩
  | filter {name body : String} {line : Nat} {children : List Node} :
      filter o name line = .error e → Refuses e ⟨.filter name body, line, children⟩

theorem textParts_fails (text : String) (line : Nat) :
    Fails (Error.OfLine line) (textParts o text line) := by
  unfold textParts
  refine .ite (.ok _) ?_
  split
  · exact .error ⟨rfl, rfl⟩
  · exact .ite (.ok _) (.ok _)

theorem content_fails (t : Tag) (line : Nat) :
    Fails (Error.OfLine line) (content o t line) := by
  unfold content
  split
  · exact .ok _
  · refine (textParts_fails o _ line).bind fun parts => ?_
    cases parts with
    | fixed text => exact .ok _
    | interpolated segments => exact .ok _
  · exact .ok _

theorem tag_fails (t : Tag) (line : Nat) :
    Fails (Error.OfLine line) (tag o t line) := by
  refine .bind (.foldlM (fun known entry => ?_) t.attributes _) fun _ => .ok _
  have checked : Fails (Error.OfLine line)
      (checkEntry o line entry) := by
    unfold checkEntry
    split
    · exact .ok _
    · next check _ =>
        refine .forM (fun code => ?_) _
        cases check code with
        | ok passes => exact .ok _
        | error reason => exact .error ⟨rfl, rfl⟩
  cases entry with
  | fixed name value => exact .ok _
  | dynamic name value => exact .ite (.ok _) (checked.bind fun _ => .ok _)
  | splat code => exact .ite (.ok _) (checked.bind fun _ => .ok _)

theorem textLine_fails (depth : Nat) (text : String) (line : Nat) :
    Fails (Error.OfLine line) (textLine o depth text line) := by
  refine (textParts_fails o text line).bind fun parts => ?_
  cases parts with
  | fixed text => exact .ok _
  | interpolated segments => exact .ok _

theorem filter_fails (name : String) (line : Nat) :
    Fails (Error.OfLine line) (filter o name line) := by
  unfold Compile.filter
  split
  · exact .ok _
  · exact .error ⟨rfl, rfl⟩

theorem Refuses.ofLine {e : Error} {n : Node} (refuses : Refuses o e n) : e.OfLine n.line := by
  cases refuses with
  | tag failed => exact tag_fails o _ _ e failed
  | content failed => exact content_fails o _ _ e failed
  | text failed => exact textLine_fails o _ _ _ e failed
  | filter failed => exact filter_fails o _ _ e failed

abbrev FailsAmong {α : Type} (nodes : List (Nat × Node)) (x : Except Error α) : Prop :=
  Fails (fun e => ∃ p ∈ nodes, Refuses o e p.2) x

theorem FailsAmong.mono {α : Type} {nodes others : List (Nat × Node)} {x : Except Error α}
    (fails : FailsAmong o nodes x) (more : ∀ p ∈ nodes, p ∈ others) : FailsAmong o others x := by
  intro e failed
  obtain ⟨p, member, refuses⟩ := fails e failed
  exact ⟨p, more p member, refuses⟩

/-- What is compiled from nodes fails only as one of them does. -/
theorem node_fails :
    (∀ depth n, ∀ level, FailsAmong o (n.preorder level) (node o depth n)) ∧
      ∀ depth ns, ∀ level, FailsAmong o (Forest.preorderAt level ns) (nodes o depth ns) := by
  have both := node.mutual_induct
    (fun depth n => ∀ level, FailsAmong o (n.preorder level) (node o depth n))
    (fun depth ns => ∀ level, FailsAmong o (Forest.preorderAt level ns) (nodes o depth ns))
    ?tag ?text ?output ?script ?inlineComment ?comment ?silentComment ?filter ?doctype ?nil ?cons
  · exact both
  case tag =>
    intro depth t line children ih level
    rw [node, Node.preorder]
    refine .bind ?_ fun compiled => ?_
    · exact fun e failed => ⟨_, List.mem_cons_self .., .tag failed⟩
    · by_cases leaf : children = []
      · subst leaf
        refine .bind ?_ fun inner => .ok _
        exact fun e failed => ⟨_, List.mem_cons_self .., .content failed⟩
      · rw [if_neg (by simpa using leaf)]
        refine .bind ?_ fun inner => .ok _
        exact FailsAmong.mono o (ih (level + 1)) fun p => List.mem_cons_of_mem _
  case text =>
    intro depth text line children level
    rw [node, Node.preorder]
    refine .bind ?_ fun i => .ok _
    exact fun e failed => ⟨_, List.mem_cons_self .., .text failed⟩
  case output =>
    intro depth code escaping line children level
    rw [node]
    exact .ok _
  case script =>
    intro depth code line children ih level
    rw [node, Node.preorder]
    refine .bind ?_ fun body => .ok _
    exact FailsAmong.mono o (ih (level + 1)) fun p => List.mem_cons_of_mem _
  case inlineComment =>
    intro depth c line children text found level
    rw [node, found]
    exact .ok _
  case comment =>
    intro depth c line children absent ih level
    rw [node, absent, Node.preorder]
    refine .bind ?_ fun inner => .ok _
    exact FailsAmong.mono o (ih (level + 1)) fun p => List.mem_cons_of_mem _
  case silentComment =>
    intro depth line children level
    rw [node]
    exact .ok _
  case filter =>
    intro depth name body line children level
    rw [node, Node.preorder]
    refine .bind ?_ fun f => .ok _
    exact fun e failed => ⟨_, List.mem_cons_self .., .filter failed⟩
  case doctype =>
    intro depth argument line children level
    rw [node]
    exact .ok _
  case nil =>
    intro depth level
    rw [nodes]
    exact .ok _
  case cons =>
    intro depth n rest first others level
    rw [nodes, Forest.preorderAt]
    refine .bind ?_ fun is => .bind ?_ fun js => .ok _
    · exact FailsAmong.mono o (first level) fun p => List.mem_append_left _
    · exact FailsAmong.mono o (others level) fun p => List.mem_append_right _

end Compile

/-- A source that cannot be compiled is refused at a line with text: by the indentation there, or as
the node on that line, be it while that node is read or once the whole document has been. -/
theorem Template.refused_at_line {source : String} {o : Options} {e : Error}
    (refused : Template.compile source o = .error e) :
    e.errorClass = .parse ∧ ∃ line, e.line? = some line ∧
      Document.HasText (Text.physicalLines source.toList) line ∧
      (e.OfIndent line ∨
        Document.RefusedAt (Indent.preset o.indentUnit) (Text.physicalLines source.toList) line e ∨
        ∃ forest, Document.read o.indentUnit source = .ok forest ∧
          ∃ p ∈ forest.preorder, p.2.line = line ∧ Compile.Refuses o e p.2) := by
  cases read : Document.read o.indentUnit source with
  | error reason =>
      simp only [compile, read] at refused
      cases refused
      obtain ⟨parse, line, here, text, cause⟩ := Document.readLines_fails read
      refine ⟨parse, line, here, text, ?_⟩
      rcases cause with indent | refused
      · exact .inl indent
      · exact .inr (.inl refused)
  | ok forest =>
      simp only [compile, read] at refused
      have fails : Compile.FailsAmong o forest.preorder (forest.compile o) :=
        ((Compile.node_fails o).2 0 forest 0).bind fun is => .ok _
      obtain ⟨p, member, refuses⟩ := fails e refused
      have empty : Outline.empty.WellNested := ⟨nofun, nofun, nofun⟩
      obtain ⟨unit, entries, -, -, layout, same, nested⟩ :=
        Document.readLines_ok (Indent.wide_preset o.indentUnit) empty read
      obtain ⟨extent, structured⟩ := Document.structured_of_layout layout same nested
      obtain ⟨i, raw, below, line, drop, text, -⟩ := structured.placed p member
      have found := Document.hasText_of_drop drop text
      rw [← line] at found
      have ofLine := refuses.ofLine o
      exact ⟨ofLine.parse, p.2.line, ofLine.here, found,
        .inr (.inr ⟨forest, rfl, p, member, rfl, refuses⟩)⟩

def continuedPage : String := "%p\n  %b\x7ba: 1,\n    b: \x7d\n"

/-- The failure has the line of the tag. -/
theorem Template.refused_at_tag : ∃ e,
    Template.compile continuedPage .standard = .error e ∧ e.errorClass = .parse ∧
      e.line? = some 2 ∧ Document.HasText (Text.physicalLines continuedPage.toList) 2 := by
  have fails : Document.read .auto continuedPage = .error (.attributeSyntax 2 (.missingValue "b")) := by
    decide +kernel
  have refused : Template.compile continuedPage .standard =
      .error (.attributeSyntax 2 (.missingValue "b")) := by
    have unit : Options.standard.indentUnit = .auto := rfl
    simp only [compile, unit, fails, bind, Except.bind]
  obtain ⟨parse, line, here, text, -⟩ := Template.refused_at_line refused
  cases here
  exact ⟨_, refused, parse, rfl, text⟩

end Haml
