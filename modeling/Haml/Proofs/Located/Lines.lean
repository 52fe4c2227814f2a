import Haml.Proofs.Emission
import Haml.Proofs.Structure
/-! Lines: the instructions of a compiled template keep the lines of the nodes they come from, and
each node the number of the line it was read from. -/

namespace Haml

inductive Instruction.Among (i : Instruction) : List Instruction → Prop
  | here {is : List Instruction} : i ∈ is → Among i is
  | inside {code : String} {line : Nat} {body is : List Instruction} :
      .script code line body ∈ is → Among i body → Among i is

namespace Instruction.Among

variable {i first last : Instruction} {is others : List Instruction}

theorem append (among : i.Among (is ++ others)) : i.Among is ∨ i.Among others := by
  cases among with
  | here member =>
      rcases List.mem_append.mp member with before | after
      · exact .inl (.here before)
      · exact .inr (.here after)
  | inside member nested =>
      rcases List.mem_append.mp member with before | after
      · exact .inl (.inside before nested)
      · exact .inr (.inside after nested)

theorem singleton (among : i.Among [first]) :
    i = first ∨ ∃ code line body, first = .script code line body ∧ i.Among body := by
  cases among with
  | here member => exact .inl (List.mem_singleton.mp member)
  | inside member nested => exact .inr ⟨_, _, _, (List.mem_singleton.mp member).symm, nested⟩

theorem not_nil : ¬ i.Among [] := by
  intro among
  cases among with
  | here member => cases member
  | inside member _ => cases member

theorem eq_of_singleton (among : i.Among [first])
    (plain : ∀ code line body, first ≠ .script code line body) : i = first := by
  rcases among.singleton with same | ⟨code, line, body, script, -⟩
  · exact same
  · exact absurd script (plain code line body)

end Instruction.Among

namespace Compile

variable {o : Options}

/-- Whether a node is the one whose code an instruction runs. -/
inductive Writes (o : Options) : Node → Instruction → Prop
  | element {depth : Nat} {t : Tag} {line : Nat} {compiled : CompiledTag} {inner : ElementContent} :
      tag o t line = .ok compiled → content o t line = .ok inner →
      Writes o ⟨.tag t, line, []⟩ (.element depth compiled inner line)
  | openTag {depth : Nat} {t : Tag} {line : Nat} {compiled : CompiledTag} {children : List Node} :
      tag o t line = .ok compiled →
      Writes o ⟨.tag t, line, children⟩ (.openTag depth compiled line)
  | text {depth : Nat} {text : String} {line : Nat} {children : List Node} {i : Instruction} :
      textLine o depth text line = .ok i → Writes o ⟨.text text, line, children⟩ i
  | output {depth : Nat} {code : String} {escaping : Escaping} {line : Nat} {children : List Node} :
      Writes o ⟨.output code escaping, line, children⟩
        (.output depth code (escapes o escaping) line)
  | script {code : String} {line : Nat} {children : List Node} {body : List Instruction} :
      Writes o ⟨.script code, line, children⟩ (.script code line body)
  | filter {depth : Nat} {name body : String} {line : Nat} {children : List Node} {f : Filter} :
      filter o name line = .ok f →
      Writes o ⟨.filter name body, line, children⟩ (.filter depth name f body line)

theorem line_of_textLine {depth line : Nat} {text : String} {i : Instruction}
    (ok : textLine o depth text line = .ok i) {found : Nat} (here : i.line? = some found) :
    found = line := by
  obtain ⟨parts, -, done⟩ := bind_ok ok
  cases parts with
  | fixed text =>
      cases done
      cases here
  | interpolated segments =>
      cases done
      cases here
      rfl

theorem Writes.line {n : Node} {i : Instruction} (writes : Writes o n i) {line : Nat}
    (here : i.line? = some line) : n.line = line := by
  cases writes with
  | text written => exact (line_of_textLine written here).symm
  | element _ _ | openTag _ | output | script | filter _ =>
      cases here
      rfl

/-- Whether each instruction among `is` that has a line comes from one of the nodes. -/
def FromNodes (o : Options) (nodes : List (Nat × Node)) (is : List Instruction) : Prop :=
  ∀ i : Instruction, i.Among is → ∀ line, i.line? = some line → ∃ p ∈ nodes, Writes o p.2 i

theorem FromNodes.mono {nodes others : List (Nat × Node)} {is : List Instruction}
    (all : FromNodes o nodes is) (more : ∀ p ∈ nodes, p ∈ others) : FromNodes o others is := by
  intro i among line here
  obtain ⟨p, member, writes⟩ := all i among line here
  exact ⟨p, more p member, writes⟩

theorem FromNodes.append {nodes : List (Nat × Node)} {is others : List Instruction}
    (first : FromNodes o nodes is) (second : FromNodes o nodes others) :
    FromNodes o nodes (is ++ others) := by
  intro i among
  rcases among.append with before | after
  · exact first i before
  · exact second i after

theorem FromNodes.cons {nodes : List (Nat × Node)} {i : Instruction} {is : List Instruction}
    (first : FromNodes o nodes [i]) (rest : FromNodes o nodes is) : FromNodes o nodes (i :: is) :=
  first.append rest

theorem FromNodes.nil (nodes : List (Nat × Node)) : FromNodes o nodes [] :=
  fun _ among => absurd among Instruction.Among.not_nil

theorem FromNodes.unlined {nodes : List (Nat × Node)} {i : Instruction} (unlined : i.line? = none) :
    FromNodes o nodes [i] := by
  intro j among line here
  have plain : ∀ code line body, i ≠ .script code line body := by
    rintro code line body rfl
    cases unlined
  rw [among.eq_of_singleton plain, unlined] at here
  cases here

theorem FromNodes.single {nodes : List (Nat × Node)} {p : Nat × Node} {i : Instruction}
    (member : p ∈ nodes) (writes : Writes o p.2 i)
    (plain : ∀ code line body, i ≠ .script code line body) : FromNodes o nodes [i] := by
  intro j among line here
  rw [among.eq_of_singleton plain]
  exact ⟨p, member, writes⟩

theorem FromNodes.below {nodes : List (Nat × Node)} {is : List Instruction}
    (all : FromNodes o nodes is) (p : Nat × Node) : FromNodes o (p :: nodes) is :=
  all.mono fun _ => List.mem_cons_of_mem p

theorem FromNodes.script {nodes : List (Nat × Node)} {code : String} {line level : Nat}
    {children : List Node} {body : List Instruction} (all : FromNodes o nodes body) :
    FromNodes o ((level, ⟨.script code, line, children⟩) :: nodes) [.script code line body] := by
  intro i among found here
  rcases among.singleton with rfl | ⟨_, _, _, same, nested⟩
  · exact ⟨_, List.mem_cons_self .., .script⟩
  · cases same
    exact all.below _ i nested found here

mutual

theorem Emits.fromNodes {depth : Nat} {n : Node} {is : List Instruction} (level : Nat) :
    Emits o depth n is → FromNodes o (n.preorder level) is
  | .element tagged filled => by
      rw [Node.preorder]
      exact .single (List.mem_cons_self ..) (.element tagged filled) nofun
  | .nest tagged _ nested => by
      rw [Node.preorder]
      refine .append (.cons ?_ ?_) (.unlined rfl)
      · exact .single (List.mem_cons_self ..) (.openTag tagged) nofun
      · exact (nested.fromNodes (level + 1)).below _
  | .text written => by
      rw [Node.preorder]
      refine .single (List.mem_cons_self ..) (.text written) ?_
      rintro code line body rfl
      obtain ⟨parts, -, done⟩ := bind_ok written
      cases parts <;> cases done
  | .output _ => by
      rw [Node.preorder]
      exact .single (List.mem_cons_self ..) .output nofun
  | .suppressedOutput _ => .nil _
  | .script _ body => by
      rw [Node.preorder]
      exact .script (body.fromNodes (level + 1))
  | .suppressedScript _ body => by
      rw [Node.preorder]
      exact (body.fromNodes (level + 1)).below _
  | .inlineComment _ => .unlined rfl
  | .comment _ nested => by
      rw [Node.preorder]
      refine .append (.cons (.unlined rfl) ?_) (.unlined rfl)
      exact (nested.fromNodes (level + 1)).below _
  | .silentComment => .nil _
  | .filter found => by
      rw [Node.preorder]
      exact .single (List.mem_cons_self ..) (.filter found) nofun
  | .doctype => by
      cases Doctype.text? _ o.format o.attributeWrapper with
      | none => exact .nil _
      | some text => exact .unlined rfl

theorem EmitsAll.fromNodes {depth : Nat} {ns : List Node} {is : List Instruction} (level : Nat) :
    EmitsAll o depth ns is → FromNodes o (Forest.preorderAt level ns) is
  | .nil => .nil _
  | .cons first others => by
      rw [Forest.preorderAt]
      refine .append ?_ ?_
      · exact (first.fromNodes level).mono fun _ => List.mem_append_left _
      · exact (others.fromNodes level).mono fun _ => List.mem_append_right _

end

end Compile

namespace Document

def Stands (number : Nat) (lines : List (List Char)) (entry : Entry) : Prop :=
  ∃ i raw below unit settled line header, entry.line = number + i ∧ lines.drop i = raw :: below ∧
    Line.read unit entry.line raw = .ok (line, settled) ∧
    Header.read settled line below = .ok header ∧ header.kind = entry.kind ∧
    line.depth = entry.depth

theorem Stands.after {number : Nat} {raw : List Char} {lines : List (List Char)} {entry : Entry}
    (stands : Stands (number + 1) lines entry) : Stands number (raw :: lines) entry := by
  obtain ⟨i, found, below, unit, settled, line, header, here, drop, rest⟩ := stands
  refine ⟨i + 1, found, below, unit, settled, line, header, ?_, drop, rest⟩
  omega

theorem stands_of_readLines {unit : Option Indent} {o : Outline} {number taken : Nat}
    {lines : List (List Char)} {forest : Forest} (nested : o.WellNested)
    (read : readLines unit o number taken lines = .ok forest) :
    ∀ entry ∈ forest.entries, entry ∈ o.entries ∨ Stands number lines entry := by
  -- The induction is on the lines: each either adds no entry, or the one it stands for.
  induction lines generalizing unit o number taken with
  | nil =>
      intro entry member
      rw [readLines] at read
      cases read
      rw [Outline.entries_finish] at member
      exact .inl member
  | cons raw rest ih =>
      intro entry member
      cases taken with
      | succ taken =>
          rw [readLines] at read
          exact (ih nested read entry member).imp_right Stands.after
      | zero =>
          rw [readLines] at read
          split at read
          · exact (ih nested read entry member).imp_right Stands.after
          · obtain ⟨⟨line, settled⟩, first, read⟩ := bind_ok read
            obtain ⟨next, descends, read⟩ := bind_ok read
            obtain ⟨header, headed, read⟩ := bind_ok read
            obtain ⟨same, length, nestedNext, allowed⟩ := Outline.descend_ok nested descends
            have pushed := nestedNext.push allowed header.kind number
            rcases ih pushed read entry member with known | later
            · rw [Outline.entries_push, same, length] at known
              rcases List.mem_append.mp known with before | here
              · exact .inl before
              · obtain rfl := List.mem_singleton.mp here
                exact .inr ⟨0, raw, rest, _, settled, line, header, rfl, rfl, first, headed, rfl, rfl⟩
            · exact .inr later.after

/-- Each node of a document is what the line of its number stands for. -/
theorem stands_of_read {unit : IndentUnit} {source : String} {forest : Forest}
    (read : Document.read unit source = .ok forest) :
    ∀ p ∈ forest.preorder, Stands 1 (Text.physicalLines source.toList) (Entry.of p) := by
  intro p member
  have empty : Outline.empty.WellNested := ⟨nofun, nofun, nofun⟩
  have listed : Entry.of p ∈ forest.entries := List.mem_map_of_mem member
  rcases stands_of_readLines empty read _ listed with known | stands
  · cases known
  · exact stands

end Document

end Haml
