import Haml.Proofs.Emission
import Haml.Proofs.Suppression
/-! Static templates: those with no code in them. They compile, whatever the options are, and what
they are compiled to is static as well. -/

namespace Haml

namespace Text

/-- Whether a text neither starts nor ends with white space; it may be empty. -/
structure IsSolid (cs : List Char) : Prop where
  first : ∀ c ∈ cs.head?, isBlank c = false
  last : ∀ c ∈ cs.getLast?, isBlank c = false

end Text

namespace Interpolation

/-- A text whose markers all stand for themselves, without the backslashes before them. -/
def unescaped : List Char → List Char
  | '\\' :: '#' :: '{' :: rest => '#' :: '{' :: unescaped rest
  | c :: rest => c :: unescaped rest
  | [] => []

theorem splitFrom_of_unmarked {cs : List Char} (unmarked : isMarked cs = false)
    (literal : List Char) : splitFrom literal cs = some (flush (literal ++ unescaped cs)) := by
  fun_induction isMarked cs generalizing literal with
  | case1 rest ih =>
      rw [splitFrom, ih unmarked, unescaped, List.append_assoc]
      rfl
  | case2 rest => cases unmarked
  | case3 c rest escaped marked ih =>
      rw [splitFrom, ih unmarked, unescaped, List.append_assoc]
      · rfl
      · exact escaped
      · exact escaped
      · exact marked
  | case4 => rw [splitFrom, unescaped, List.append_nil]

theorem literals_flush_nil (cs : List Char) :
    String.join (Compile.literals (flush cs)) = String.ofList cs := by
  cases cs with
  | nil => rfl
  | cons c cs => simp [flush, Compile.literals, String.join]

theorem unescaped_of_whole {cs : List Char} (whole : Text.splitOnce ['#', '{'] cs = none) :
    unescaped cs = cs := by
  fun_induction unescaped cs with
  | case1 rest ih =>
      have marked : Text.splitOnce ['#', '{'] ('\\' :: '#' :: '{' :: rest) =
          some (['\\'], rest) := rfl
      rw [marked] at whole
      cases whole
  | case2 c rest _ ih =>
      rw [Text.splitOnce] at whole
      split at whole
      · cases whole
      · rw [ih (Option.map_eq_none_iff.mp whole)]
  | case3 => rfl

theorem getLast?_unescaped (cs : List Char) : (unescaped cs).getLast? = cs.getLast? := by
  fun_induction unescaped cs with
  | case1 rest ih => simp [List.getLast?_cons, ih]
  | case2 c rest _ ih => simp [List.getLast?_cons, ih]
  | case3 => rfl

theorem isSolid_unescaped {cs : List Char} (solid : Text.IsSolid cs) :
    Text.IsSolid (unescaped cs) := by
  refine ⟨?_, by rw [getLast?_unescaped]; exact solid.last⟩
  fun_cases unescaped cs with
  | case1 rest =>
      rintro c ⟨⟩
      rfl
  | case2 c rest => exact solid.first
  | case3 => exact nofun

end Interpolation

/-! Which nodes are static, and which instructions. -/

def Text.IsPlain (text : String) : Prop :=
  Interpolation.isMarked text.toList = false ∧ IsSolid text.toList

def AttributeEntry.IsFixed : AttributeEntry → Prop
  | .fixed .. => True
  | .dynamic .. | .splat _ => False

def InlineContent.Static : InlineContent → Prop
  | .text raw => Text.IsPlain raw
  | .output .. => False

def NodeKind.Static : NodeKind → Prop
  | .tag t => (∀ entry ∈ t.attributes, entry.IsFixed) ∧ ∀ content ∈ t.content, content.Static
  | .text raw => Text.IsPlain raw
  | .comment _ | .silentComment | .doctype _ => True
  | .script _ | .output .. | .filter .. => False

/-- Whether a node and all nodes nested in it are static. -/
inductive Node.Static : Node → Prop
  | intro {kind : NodeKind} {line : Nat} {children : List Node} :
      kind.Static → (∀ n ∈ children, n.Static) → Node.Static ⟨kind, line, children⟩

def ElementContent.Static : ElementContent → Prop
  | .empty | .selfClosing => True
  | .text raw => Text.IsSolid raw.toList
  | .interpolated .. | .output .. => False

def Instruction.Static : Instruction → Prop
  | .text _ raw => ∀ c ∈ raw.toList.head?, Text.isBlank c = false
  | .element _ tag content _ => tag.computed = [] ∧ content.Static
  | .openTag _ tag _ => tag.computed = []
  | .closeTag .. => True
  | .interpolated .. | .output .. | .script .. | .filter .. => False

theorem ElementContent.Static.inert {content : ElementContent} (static : content.Static) :
    content.Inert := by
  cases content with
  | empty | selfClosing | text => trivial
  | interpolated | output => cases static

theorem Instruction.Static.inert {i : Instruction} (static : i.Static) : i.Inert := by
  cases i with
  | text | closeTag => trivial
  | element => exact ⟨static.1, static.2.inert⟩
  | openTag => exact static
  | interpolated | output | script | filter => cases static

namespace Compile

variable (o : Options)

theorem textParts_plain {text : String} (plain : Interpolation.isMarked text.toList = false)
    (line : Nat) :
    textParts o text line = .ok (.fixed (String.ofList (Interpolation.unescaped text.toList))) := by
  unfold textParts
  split
  · next whole =>
      rw [Interpolation.unescaped_of_whole (Option.isNone_iff_eq_none.mp whole),
        String.ofList_toList]
  · rw [Interpolation.split, Interpolation.splitFrom_of_unmarked plain, List.nil_append]
    have fixed :
        hasExpression (Interpolation.flush (Interpolation.unescaped text.toList)) = false := by
      unfold Interpolation.flush
      split <;> rfl
    simp only [fixed, Bool.false_and, Bool.false_eq_true, if_false,
      Interpolation.literals_flush_nil]

theorem foldlM_addEntry_fixed {entries : List AttributeEntry}
    (fixed : ∀ entry ∈ entries, entry.IsFixed) (line : Nat)
    (known : AttributeSet × List AttributeEntry) :
    ∃ merged, entries.foldlM (addEntry o line) known = .ok (merged, known.2) := by
  induction entries generalizing known with
  | nil => exact ⟨known.1, rfl⟩
  | cons entry entries ih =>
      obtain ⟨here, others⟩ := List.forall_mem_cons.mp fixed
      cases entry with
      | fixed name value => exact ih others (known.1.merge name value, known.2)
      | dynamic | splat => cases here

theorem tag_static {t : Tag} (fixed : ∀ entry ∈ t.attributes, entry.IsFixed) (line : Nat) :
    ∃ compiled, tag o t line = .ok compiled ∧ compiled.computed = [] := by
  obtain ⟨merged, folded⟩ := foldlM_addEntry_fixed o fixed line (AttributeSet.empty, [])
  refine ⟨⟨t.name, merged, [], t.trimOuter, t.trimInner⟩, ?_, rfl⟩
  rw [tag, folded]
  rfl

theorem content_static {t : Tag} (plain : ∀ content ∈ t.content, content.Static) (line : Nat) :
    ∃ inner, content o t line = .ok inner ∧ inner.Static := by
  unfold content
  split
  · split <;> exact ⟨_, rfl, trivial⟩
  · next text holds =>
      obtain ⟨unmarked, solid⟩ := plain _ holds
      rw [textParts_plain o unmarked]
      refine ⟨_, rfl, ?_⟩
      rw [ElementContent.Static, String.toList_ofList]
      exact Interpolation.isSolid_unescaped solid
  · next code escaping holds => cases plain _ holds

theorem textLine_static {text : String} (plain : Text.IsPlain text) (depth line : Nat) :
    ∃ i, textLine o depth text line = .ok i ∧ i.Static := by
  rw [textLine, textParts_plain o plain.1]
  refine ⟨_, rfl, ?_⟩
  rw [Instruction.Static, String.toList_ofList]
  exact (Interpolation.isSolid_unescaped plain.2).first

theorem static_of_head {depth : Nat} {text : String} {c : Char}
    (starts : text.toList.head? = some c) (seen : Text.isBlank c = false) :
    (Instruction.text depth text).Static := by
  rw [Instruction.Static, starts]
  rintro d ⟨⟩
  exact seen

theorem head?_append {first second : String} {c : Char} (starts : first.toList.head? = some c) :
    (first ++ second).toList.head? = some c := by
  rw [String.toList_append, List.head?_append, starts]
  rfl

theorem head?_commentStart (c : Comment) : (commentStart c).toList.head? = some '<' := by
  unfold commentStart
  split
  · exact head?_append (head?_append rfl)
  · rfl

theorem static_commentEnd (c : Comment) (depth : Nat) :
    (Instruction.text depth (commentEnd c)).Static := by
  unfold commentEnd
  split <;> exact static_of_head rfl rfl

end Compile

namespace Doctype

open Compile (head?_append)

theorem head?_declare (identifier url : String) :
    (declare identifier url).toList.head? = some '<' :=
  head?_append (head?_append (head?_append (head?_append rfl)))

theorem head?_prolog (wrapper : Char) (encoding : String) :
    (prolog wrapper encoding).toList.head? = some '<' := by
  unfold prolog
  iterate 8 apply head?_append
  rfl

theorem head?_text {argument text : String} {format : Format} {wrapper : Char}
    (line : text? argument format wrapper = some text) : text.toList.head? = some '<' := by
  unfold text? at line
  dsimp only at line
  split at line
  · split at line
    · cases line
    · cases line
      exact head?_prolog _ _
  · cases format <;> cases line
    · unfold xhtml
      split
      · rfl
      all_goals exact head?_declare _ _
    · unfold html4
      split <;> exact head?_declare _ _
    · rfl

end Doctype

namespace Compile

theorem node_static (o : Options) :
    (∀ depth n, n.Static → ∃ is, node o depth n = .ok is ∧ ∀ i ∈ is, i.Static) ∧
      ∀ depth ns, (∀ n ∈ ns, n.Static) → ∃ is, nodes o depth ns = .ok is ∧ ∀ i ∈ is, i.Static := by
  have both := node.mutual_induct
    (fun depth n => n.Static → ∃ is, node o depth n = .ok is ∧ ∀ i ∈ is, i.Static)
    (fun depth ns => (∀ n ∈ ns, n.Static) →
      ∃ is, nodes o depth ns = .ok is ∧ ∀ i ∈ is, i.Static)
    ?tag ?text ?output ?script ?inlineComment ?comment ?silentComment ?filter ?doctype ?nil ?cons
  · exact both
  case tag =>
    rintro depth t line children ih ⟨⟨fixed, plain⟩, nested⟩
    obtain ⟨compiled, opened, known⟩ := tag_static o fixed line
    obtain ⟨inner, filled, static⟩ := content_static o plain line
    obtain ⟨is, inside, each⟩ := ih nested
    rw [node, opened, filled, inside]
    simp only [bind, Except.bind]
    split
    · exact ⟨_, rfl, List.forall_mem_singleton.mpr ⟨known, static⟩⟩
    · exact ⟨_, rfl, forall_mem_enclosed known each trivial⟩
  case text =>
    rintro depth text line children ⟨plain, -⟩
    obtain ⟨i, written, static⟩ := textLine_static o plain depth line
    rw [node, written]
    exact ⟨_, rfl, List.forall_mem_singleton.mpr static⟩
  case output =>
    rintro depth code escaping line children ⟨⟨⟩, -⟩
  case script =>
    rintro depth code line children ih ⟨⟨⟩, -⟩
  case inlineComment =>
    rintro depth c line children text holds static
    rw [node, holds]
    have starts : (commentStart c ++ " " ++ text ++ " " ++ commentEnd c).toList.head? = some '<' :=
      head?_append (head?_append (head?_append (head?_append (head?_commentStart c))))
    exact ⟨_, rfl, List.forall_mem_singleton.mpr (static_of_head starts rfl)⟩
  case comment =>
    rintro depth c line children bare ih ⟨-, nested⟩
    obtain ⟨is, inside, each⟩ := ih nested
    rw [node, bare, inside]
    exact ⟨_, rfl, forall_mem_enclosed (static_of_head (head?_commentStart c) rfl) each
      (static_commentEnd c depth)⟩
  case silentComment =>
    rintro depth line children static
    rw [node]
    exact ⟨[], rfl, List.forall_mem_nil _⟩
  case filter =>
    rintro depth name body line children ⟨⟨⟩, -⟩
  case doctype =>
    rintro depth argument line children static
    rw [node]
    refine ⟨_, rfl, fun i member => ?_⟩
    obtain ⟨text, found, rfl⟩ := Option.map_eq_some_iff.mp (Option.mem_toList.mp member)
    exact static_of_head (Doctype.head?_text found) rfl
  case nil =>
    intro depth _
    exact ⟨[], rfl, List.forall_mem_nil _⟩
  case cons =>
    intro depth n rest first others each
    obtain ⟨here, nested⟩ := List.forall_mem_cons.mp each
    obtain ⟨is, node, static⟩ := first here
    obtain ⟨more, nodes, statics⟩ := others nested
    rw [Compile.nodes, node, nodes]
    exact ⟨_, rfl, List.forall_mem_append.mpr ⟨static, statics⟩⟩

end Compile

/-- A static forest is compiled to static instructions, whatever the options are. -/
theorem Forest.compile_static {forest : Forest} (static : ∀ n ∈ forest, n.Static) (o : Options) :
    ∃ t, forest.compile o = .ok t ∧ t.id = o.templateId ∧ t.settings = o.renderSettings ∧
      ∀ i ∈ t.instructions, i.Static := by
  obtain ⟨is, compiled, each⟩ := (Compile.node_static o).2 0 forest static
  refine ⟨⟨o.templateId, is, o.renderSettings⟩, ?_, rfl, rfl, each⟩
  rw [Forest.compile, compiled]
  rfl

namespace Render

variable (e : Evaluator) (settings : RenderSettings) (c : Context)

def writeAll (is : List Instruction) (b : Buffer) : Buffer :=
  is.foldl (fun b i => (write e settings c i b).2) b

theorem write_static {i : Instruction} (static : i.Static) (b : Buffer) :
    (write e settings c i b).1 = .ok () := by
  obtain ⟨outcome, b', same, fails⟩ := write_inert settings static.inert b
  rw [same]
  cases outcome with
  | ok done => rfl
  | error failure =>
      obtain ⟨depth, name, filter, text, line, reason, rfl, -⟩ := fails failure rfl
      cases static

/-- Static instructions run to their end and leave the context as it is. -/
theorem steps_static {is : List Instruction} (static : ∀ i ∈ is, i.Static) (id : String)
    (previous : Branch) (b : Buffer) :
    steps e id settings is previous ⟨c, b⟩ = (.ok (), ⟨c, writeAll e settings c is b⟩) := by
  induction is generalizing previous b with
  | nil =>
      rw [steps]
      rfl
  | cons i rest ih =>
      obtain ⟨here, others⟩ := List.forall_mem_cons.mp static
      rw [steps, step_eq_write (by rintro _ _ _ rfl; cases here), write_static e settings c here]
      exact ih others _ _

end Render

end Haml
