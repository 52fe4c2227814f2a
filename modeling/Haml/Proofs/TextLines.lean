import Haml.Proofs.Interpolated
import Haml.Proofs.Located.Lines
import Haml.Proofs.Markers
import Haml.Proofs.Static
/-! Text lines: how any text is written as a line, and which lines show their text without
evaluating any of it. -/

namespace Haml

namespace Interpolation

variable {c : Char} {cs rest : List Char}

theorem unescaped_cons (plain : c = '\\' → ¬ Marked cs) :
    unescaped (c :: cs) = c :: unescaped cs := by
  rw [unescaped]
  rintro rest rfl rfl
  exact plain rfl ⟨rest, rfl⟩

theorem unescaped_escape (cs : List Char) : unescaped (escape cs) = cs := by
  fun_induction escape cs with
  | case1 rest ih => rw [unescaped, ih]
  | case2 c rest unmarked ih => rw [unescaped_cons fun _ => not_marked_escape rest, ih]
  | case3 => rfl

theorem count_unescaped (other : c ≠ '\\') (cs : List Char) :
    (unescaped cs).count c = cs.count c := by
  fun_induction unescaped cs with
  | case1 rest ih =>
      rw [List.count_cons, List.count_cons, ih, List.count_cons_of_ne other.symm, List.count_cons,
        List.count_cons]
  | case2 d rest _ ih => rw [List.count_cons, List.count_cons, ih]
  | case3 => rfl

theorem guarded_of_append {first : List Char} (guarded : Guarded (first ++ c :: rest))
    (other : c ≠ '\\') : Guarded rest := by
  rintro before after rfl
  have last := guarded (first ++ c :: before) after (by simp)
  rw [List.getLast?_append_of_ne_nil _ (List.cons_ne_nil c before)] at last
  cases before with
  | nil =>
      cases last
      exact absurd rfl other
  | cons d before => exact last

theorem getLast?_escape (cs : List Char) : (escape cs).getLast? = cs.getLast? := by
  fun_induction escape cs with
  | case1 rest ih => simp [List.getLast?_cons, ih]
  | case2 d rest _ ih => rw [List.getLast?_cons, List.getLast?_cons, ih]
  | case3 => rfl

theorem mem_of_mem_escape (other : c ≠ '\\') (member : c ∈ escape cs) : c ∈ cs := by
  rw [← unescaped_escape cs, ← List.count_pos_iff, count_unescaped other, List.count_pos_iff]
  exact member

end Interpolation

namespace Line

open Interpolation (Marked escape unescaped)

variable {text : List Char}

theorem IsText.backslash (isText : IsText text) : IsText ('\\' :: text) := by
  obtain ⟨whole, ⟨c, head, -⟩, last⟩ := isText
  refine ⟨by simpa using whole, ⟨'\\', rfl, rfl⟩, ?_⟩
  obtain ⟨cs, rfl⟩ := List.head?_eq_some_iff.mp head
  rwa [List.getLast?_cons_cons]

theorem IsText.escape (isText : IsText text) : IsText (escape text) := by
  obtain ⟨whole, first, last⟩ := isText
  refine ⟨fun newline => whole (Interpolation.mem_of_mem_escape (by decide) newline), ?_, ?_⟩
  · fun_cases Interpolation.escape text with
    | case1 => exact ⟨'\\', rfl, rfl⟩
    | case2 => exact first
    | case3 => exact first
  · rwa [Interpolation.getLast?_escape]

/-- The line that a text is written as. -/
def written (text : List Char) : List Char :=
  if Sigil.classify (escape text) = .plain then escape text else '\\' :: escape text

theorem IsText.written (isText : IsText text) : IsText (written text) := by
  unfold Line.written
  split
  · exact isText.escape
  · exact isText.escape.backslash

/-- What the text of a line should be shown as: without the backslash that makes text of the line,
and without those right before markers. -/
def shown : List Char → List Char
  | '\\' :: '#' :: '{' :: rest => '#' :: '{' :: unescaped rest
  | '\\' :: rest => unescaped rest
  | text => unescaped text

theorem shown_backslash {rest : List Char} (plain : ¬ Marked rest) :
    shown ('\\' :: rest) = unescaped rest := by
  rw [shown]
  rintro after rfl
  exact plain ⟨after, rfl⟩

end Line

namespace Sigil

variable {cs : List Char}

theorem exists_of_escape (sigil : classify cs = .escape) : ∃ rest, cs = '\\' :: rest := by
  unfold classify at sigil
  split at sigil
  case h_13 rest => exact ⟨rest, rfl⟩
  all_goals cases sigil

end Sigil

namespace Header

variable {unit : Option Indent} {line : Line} {below : List (List Char)} {header : Header}

theorem alone_of_plain {text : List Char} (plain : Sigil.classify text = .plain) :
    alone text = .ok ⟨.text (String.ofList text), 0, none⟩ := by
  simp only [alone, Header.read, Line.sigil, plain]

theorem alone_written (text : List Char) : alone (Line.written text) =
    .ok ⟨.text (String.ofList (Interpolation.escape text)), 0, none⟩ := by
  unfold Line.written
  split
  · next plain => exact alone_of_plain plain
  · rfl

/-- A line is text because nothing makes anything else of it, or because of a backslash. -/
theorem text_of_read {text : String} (read : Header.read unit line below = .ok header)
    (isText : header.kind = .text text) :
    line.sigil = .plain ∧ text = String.ofList line.text ∨
      ∃ rest, line.text = '\\' :: rest ∧ text = String.ofList rest := by
  obtain ⟨kind, taken, after⟩ := header
  obtain rfl : kind = .text text := isText
  cases sigil : line.sigil <;> simp only [Header.read, sigil] at read
  case tag | cssClass | cssId =>
    obtain ⟨⟨t, rest⟩, -, done⟩ := bind_ok read
    cases done
  case filter =>
    split at read
    · cases read
    · obtain ⟨block, -, done⟩ := bind_ok read
      cases done
  case escape =>
    obtain ⟨rest, text⟩ := Sigil.exists_of_escape sigil
    rw [text] at read
    cases read
    exact .inr ⟨rest, text, rfl⟩
  case plain =>
    cases read
    exact .inl ⟨rfl, rfl⟩
  all_goals cases read

end Header

namespace Document

theorem exists_fits (unit : IndentUnit) :
    ∃ u, Indent.Wide (some u) ∧ Indent.Fits u (Indent.preset unit) 0 := by
  cases chosen : Indent.preset unit with
  | none => exact ⟨.tab, Indent.wide_tab, .inr ⟨rfl, Nat.zero_le 1⟩⟩
  | some u => exact ⟨u, chosen ▸ Indent.wide_preset unit, .inl rfl⟩

/-- A source of one line is one node, which is what the line is on its own. -/
theorem read_line {text : List Char} {header : Header} (isText : Line.IsText text)
    (alone : Header.alone text = .ok header) (unit : IndentUnit) :
    Document.read unit (String.ofList text) = .ok [⟨header.kind.withBody [], 1, []⟩] := by
  obtain ⟨u, wide, fits⟩ := exists_fits unit
  have isLine : Plan.IsLine text := ⟨isText.whole, fun last => by cases isText.last '\r' last⟩
  have empty : Line.IsBody [] := ⟨nofun, nofun, nofun, nofun⟩
  have admits : Outline.empty.Admits 0 := ⟨Nat.zero_le _, nofun⟩
  obtain ⟨settled, -, reads⟩ := Plan.readLines_header wide isText alone empty (absurd rfl) fits
    admits (fun _ => .nil) 1
  rw [Indent.lead_zero] at reads
  calc Document.read unit (String.ofList text)
      = readLines (Indent.preset unit) .empty 1 0 [text] := by
        rw [Document.read, String.toList_ofList, ← readLines_print
          (List.forall_mem_singleton.mpr isLine), List.intercalate_singleton]
    _ = readLines settled (Outline.empty.push ⟨header.kind.withBody [], 1, []⟩) 2 0 [] := reads
    _ = .ok [⟨header.kind.withBody [], 1, []⟩] := rfl

end Document

namespace Compile

open Interpolation (unescaped isMarked)

theorem node_text {text : List Char} (unmarked : isMarked text = false) (o : Options)
    (depth line : Nat) (children : List Node) :
    node o depth ⟨.text (String.ofList text), line, children⟩ =
      .ok [.text depth (String.ofList (unescaped text))] := by
  have plain : isMarked (String.ofList text).toList = false := by rwa [String.toList_ofList]
  rw [node, textLine, textParts_plain o plain, String.toList_ofList]
  rfl

end Compile

/-- Every text can be written as a line: whatever it holds, nothing of it is evaluated, and it is
what the line renders to. -/
theorem Template.compile_written {text : List Char} (isText : Line.IsText text) (o : Options) :
    ∃ t, Template.compile (String.ofList (Line.written text)) o = .ok t ∧
      t.instructions = [.text 0 (String.ofList text)] ∧
      ∀ e c, t.run e c = (.ok (String.ofList (text ++ ['\n'])), c) := by
  have read := Document.read_line isText.written (Header.alone_written text) o.indentUnit
  have emitted := Compile.node_text (Interpolation.isMarked_escape text) o 0 1 []
  rw [Interpolation.unescaped_escape] at emitted
  refine ⟨⟨o.templateId, [.text 0 (String.ofList text)], o.renderSettings⟩, ?_, rfl, fun e c => ?_⟩
  · rw [Template.compile, read]
    simp only [bind, Except.bind, NodeKind.withBody, Forest.compile, Compile.nodes, emitted]
    rfl
  · have static : (Instruction.text 0 (String.ofList text)).Static := by
      rw [Instruction.Static, String.toList_ofList]
      obtain ⟨c, head, visible⟩ := isText.first
      rw [head]
      rintro d ⟨⟩
      exact visible
    rw [Template.run, Render.steps_static e _ c (List.forall_mem_singleton.mpr static)]
    simp [Render.writeAll, Render.write, Buffer.line, Buffer.empty, Except.map]

theorem Template.compile_written_escaped :
    let text := "\\#\x7ba\x7d #\x7b".toList
    Line.IsText text ∧ Line.written text = "\\\\\\#\x7ba\x7d \\#\x7b".toList ∧
      ∃ t, Template.compile (String.ofList (Line.written text)) .standard = .ok t ∧
        t.instructions = [.text 0 (String.ofList text)] ∧
        ∀ e c, t.run e c = (.ok (String.ofList (text ++ ['\n'])), c) := by
  have isText : Line.IsText "\\#\x7ba\x7d #\x7b".toList := by
    refine ⟨by decide, ⟨'\\', rfl, rfl⟩, ?_⟩
    rintro c ⟨⟩
    rfl
  exact ⟨isText, by decide, compile_written isText .standard⟩

/-! Lines in which a backslash stands right before each marker. -/

namespace Compile

open Interpolation (Guarded isMarked unescaped)

variable (o : Options) (depth line : Nat) (children : List Node)

theorem node_element {t : Tag} {text : String} (holds : t.content = some (.text text))
    (unmarked : isMarked text.toList = false) :
    node o depth ⟨.tag t, line, []⟩ = (tag o t line).map fun compiled =>
      [.element depth compiled (.text (String.ofList (unescaped text.toList))) line] := by
  rw [node, content, holds]
  cases tag o t line with
  | error e => rfl
  | ok compiled =>
      simp only [textParts_plain o unmarked]
      rfl

theorem node_text_marked {rest : List Char} (guarded : Guarded ('\\' :: '#' :: '{' :: rest)) :
    node o depth ⟨.text (String.ofList ('#' :: '{' :: rest)), line, children⟩ ≠
      .ok [.text depth (String.ofList ('#' :: '{' :: unescaped rest))] := by
  have marked : (Text.splitOnce ['#', '{'] ('#' :: '{' :: rest)).isNone = false := rfl
  rw [node, textLine, textParts, String.toList_ofList, marked, if_neg Bool.false_ne_true,
    Interpolation.split, Interpolation.splitFrom_marker]
  intro same
  cases closed : Interpolation.closingBrace rest with
  | none =>
      rw [closed] at same
      cases same
  | some p =>
      obtain ⟨code, after⟩ := p
      obtain rfl := Interpolation.closing_append closed
      have whole : Guarded (('\\' :: '#' :: '{' :: code) ++ '}' :: after) := guarded
      have later : Guarded after := Interpolation.guarded_of_append whole (by decide)
      have cut := Interpolation.splitFrom_of_unmarked
        (Interpolation.isMarked_eq_false_iff.mpr later) []
      rw [closed, Option.bind_some, cut, Option.map_some] at same
      cases suppressed : o.suppressEval with
      | false =>
          rw [suppressed] at same
          cases same
      | true =>
          rw [suppressed] at same
          change (Except.ok [Instruction.text depth (String.join (literals
            (Interpolation.flush (unescaped after))))] : Except Error _) = _ at same
          rw [Interpolation.literals_flush_nil] at same
          simp only [Except.ok.injEq, List.cons.injEq, Instruction.text.injEq, String.ofList_inj,
            and_true, true_and] at same
          have braces := congrArg (List.count '}') same
          rw [List.count_cons_of_ne (by decide), List.count_cons_of_ne (by decide),
            Interpolation.count_unescaped (by decide), Interpolation.count_unescaped (by decide),
            List.count_append, List.count_cons_self] at braces
          omega

/-- What stands on a line of text is shown exactly if no escaped marker starts it: the backslash of
one that does is taken for that of the line. -/
theorem node_text_iff {raw : List Char} {text : String} (guarded : Guarded raw)
    (stands : Sigil.classify raw = .plain ∧ text = String.ofList raw ∨
      ∃ rest, raw = '\\' :: rest ∧ text = String.ofList rest) :
    node o depth ⟨.text text, line, children⟩ =
        .ok [.text depth (String.ofList (Line.shown raw))] ↔ ¬ ['\\', '#', '{'] <+: raw := by
  have unmarked := Interpolation.isMarked_eq_false_iff.mpr guarded
  rcases stands with ⟨plain, rfl⟩ | ⟨rest, rfl, rfl⟩
  · have unslashed : ∀ rest, raw ≠ '\\' :: rest := by
      rintro rest rfl
      cases plain
    have same : Line.shown raw = unescaped raw := by
      rw [Line.shown]
      · exact fun rest => unslashed _
      · exact unslashed
    have written := node_text unmarked o depth line children
    rw [← same] at written
    refine ⟨fun _ marked => ?_, fun _ => written⟩
    obtain ⟨after, whole⟩ := marked
    exact unslashed _ whole.symm
  · by_cases marked : Interpolation.Marked rest
    · obtain ⟨after, rfl⟩ := Interpolation.exists_of_marked marked
      refine ⟨fun same => absurd same ?_, fun other => absurd ⟨after, rfl⟩ other⟩
      exact node_text_marked o depth line children guarded
    · rw [Interpolation.isMarked_backslash marked] at unmarked
      have written := node_text unmarked o depth line children
      rw [← Line.shown_backslash marked] at written
      refine ⟨fun _ escaped => marked ?_, fun _ => written⟩
      exact (List.cons_prefix_cons.mp escaped).2

end Compile

/-- Whether nothing of a text is evaluated in which a backslash stands right before each marker:
neither of a line, unless it starts so, nor of a text behind a tag. -/
structure Forest.ShowsGuarded (o : Options) (lines : List (List Char)) (forest : Forest) :
    Prop where
  line : ∀ p ∈ forest.preorder, ∀ text, p.2.kind = .text text →
    ∃ raw, lines[p.2.line - 1]? = some raw ∧ (Interpolation.Guarded (Line.content raw) → ∀ depth,
      (Compile.node o depth p.2 =
          .ok [.text depth (String.ofList (Line.shown (Line.content raw)))] ↔
        ¬ ['\\', '#', '{'] <+: Line.content raw))
  inline : ∀ p ∈ forest.preorder, ∀ t text, p.2.kind = .tag t → t.content = some (.text text) →
    Interpolation.Guarded text.toList → ∀ depth, Compile.node o depth p.2 =
      (Compile.tag o t p.2.line).map fun compiled =>
        [.element depth compiled (.text (String.ofList (Interpolation.unescaped text.toList)))
          p.2.line]

namespace Document

open Interpolation (Guarded Marked)

variable {unit : IndentUnit} {source : String} {forest : Forest}

/-- The text of a node that is text stands on its line, behind a backslash or as the whole line. -/
theorem text_of_preorder (read : Document.read unit source = .ok forest) {p : Nat × Node}
    (member : p ∈ forest.preorder) {text : String} (isText : p.2.kind = .text text) :
    ∃ raw, (Text.physicalLines source.toList)[p.2.line - 1]? = some raw ∧
      (Sigil.classify (Line.content raw) = .plain ∧ text = String.ofList (Line.content raw) ∨
        ∃ rest, Line.content raw = '\\' :: rest ∧ text = String.ofList rest) := by
  obtain ⟨i, raw, below, first, settled, line, header, number, drop, lined, headed, kind, -⟩ :=
    stands_of_read read p member
  have place : p.2.line - 1 = i := by
    have same : p.2.line = 1 + i := number
    omega
  refine ⟨raw, ?_, ?_⟩
  · rw [place, ← List.head?_drop, drop]
    rfl
  · obtain ⟨measured, -, done⟩ := bind_ok lined
    cases done
    exact Header.text_of_read headed (kind.trans isText)

/-- A text in which a backslash stands right before each marker is shown, and nothing of it is
evaluated, but for a marker that a line starts with: its backslash makes text of the line. -/
theorem shows_guarded (read : Document.read unit source = .ok forest) (o : Options) :
    forest.ShowsGuarded o (Text.physicalLines source.toList) ∧
      ∀ (e : Evaluator) (settings : RenderSettings) (c : Context) (depth : Nat) (text : List Char)
        (b : Buffer),
        Render.write e settings c (.text depth (String.ofList text)) b =
          (.ok (), b.line depth text) ∧
        Render.content e c (.text (String.ofList text)) = .ok (some text) := by
  refine ⟨⟨?_, ?_⟩, fun e settings c depth text b => ?_⟩
  · rintro ⟨level, kind, line, children⟩ member text isText
    obtain rfl : kind = .text text := isText
    obtain ⟨raw, found, stands⟩ := text_of_preorder read member rfl
    exact ⟨raw, found, fun guarded depth =>
      Compile.node_text_iff o depth line children guarded stands⟩
  · rintro ⟨level, kind, line, children⟩ member t text isTag holds guarded depth
    obtain rfl : kind = .tag t := isTag
    have alone : children = [] := by
      by_contra nested
      obtain ⟨indent, extent, -, structured⟩ := read_structured read
      obtain ⟨empty, -⟩ : (NodeKind.tag t).MayNest := structured.nested _ member nested
      rw [holds] at empty
      cases empty
    subst alone
    exact Compile.node_element o depth line holds
      (Interpolation.isMarked_eq_false_iff.mpr guarded)
  · rw [Render.write, Render.content, String.toList_ofList]
    exact ⟨rfl, rfl⟩

def guardedPage : String := "\\\\#\x7ba\x7d \\#\x7bb\n%p \\#\x7bc\x7d\n\\#\x7bd\x7d"

theorem guardedPage_shown :
    ∃ forest, Document.read .auto guardedPage = .ok forest ∧
      (forest.ShowsGuarded .standard (Text.physicalLines guardedPage.toList) ∧
        ∀ (e : Evaluator) (settings : RenderSettings) (c : Context) (depth : Nat)
          (text : List Char) (b : Buffer),
          Render.write e settings c (.text depth (String.ofList text)) b =
            (.ok (), b.line depth text) ∧
          Render.content e c (.text (String.ofList text)) = .ok (some text)) := by
  have reads : (Document.read .auto guardedPage).isOk = true := by decide +kernel
  cases read : Document.read .auto guardedPage with
  | error e =>
      rw [read] at reads
      cases reads
  | ok forest => exact ⟨forest, rfl, shows_guarded read .standard⟩

end Document

/-- The backslash before a marker that starts a line is used up by the line, and the marker
evaluated. -/
theorem Template.guarded_evaluated :
    Interpolation.Guarded "\\#\x7be\x7d".toList ∧
      (Template.compile "\\#\x7be\x7d" .standard).map
          (fun t => (t.run .variables (.holding "a")).1) =
        .ok (.ok "a\n") :=
  ⟨Interpolation.isMarked_eq_false_iff.mp (by decide), by decide +kernel⟩

end Haml
