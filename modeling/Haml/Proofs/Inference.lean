import Haml.Proofs.Arrival
/-! Inferred units: a document that settles its unit by itself is read as with that unit preset, and
what is read with a preset unit is read alike without it. -/

namespace Haml

namespace Indent

variable {u : Indent} {unit : Option Indent} {lead : List Char} {line depth : Nat}

theorem eq_nil_of_measures_zero (measured : Measures unit lead 0) : lead = [] := by
  match unit, measured with
  | none, measured => exact measured.1
  | some tab, measured => exact measured
  | some (spaces width), measured =>
      rw [measured.2, Nat.zero_mul]
      rfl

theorem one_unit_iff {n : Nat} (width : Nat) (positive : 0 < n) :
    n % width = 0 ∧ n / width = 1 ↔ n = width := by
  constructor
  · rintro ⟨divides, one⟩
    have whole := Nat.div_add_mod n width
    rw [divides, one, Nat.mul_one, Nat.add_zero] at whole
    exact whole.symm
  · rintro rfl
    exact ⟨Nat.mod_self n, Nat.div_self positive⟩

/-- Indentation is one level of a unit exactly if it settles that unit where none is settled. -/
theorem measure_one_iff :
    measure (some u) lead line = .ok (1, some u) ↔ measure none lead line = .ok (1, some u) := by
  unfold measure
  dsimp only
  by_cases empty : lead.isEmpty = true
  · simp [empty]
  by_cases mixed : (decide (0 < lead.countP (· == '\t')) &&
      decide (0 < lead.length - lead.countP (· == '\t'))) = true
  · rw [if_neg empty, if_pos mixed, if_neg empty, if_pos mixed]
  rw [if_neg empty, if_neg mixed, if_neg empty, if_neg mixed]
  by_cases tabs : 0 < lead.countP (· == '\t')
  · rw [if_pos tabs]
    cases u <;> simp
  · have filled : 0 < lead.length := by
      rw [List.length_pos_iff]
      simpa using empty
    have spaced : 0 < lead.length - lead.countP (· == '\t') := by omega
    generalize lead.length - lead.countP (· == '\t') = n at spaced
    rw [if_neg tabs]
    cases u with
    | tab => simp
    | spaces width =>
        have one := one_unit_iff width spaced
        dsimp only
        split
        · next divides => simp_all
        · next other => simp_all

/-- Indentation of at most one level is measured alike with a unit and with none, which it may
settle. -/
theorem measure_inferred (wide : Wide (some u)) (line : Nat)
    (indent : ∀ c ∈ lead, Text.isIndent c = true) (shallow : depth ≤ 1) :
    measure (some u) lead line = .ok (depth, some u) ↔
      measure none lead line = .ok (depth, some u) ∨ measure none lead line = .ok (depth, none) := by
  rcases Nat.le_one_iff_eq_zero_or_eq_one.mp shallow with rfl | rfl
  · constructor
    · intro measured
      obtain rfl := eq_nil_of_measures_zero (measure_ok wide indent measured).2.2
      exact .inr rfl
    · rintro (measured | measured)
      · obtain rfl := eq_nil_of_measures_zero (measure_ok wide_none indent measured).2.2
        rfl
      · obtain rfl := eq_nil_of_measures_zero (measure_ok wide_none indent measured).2.2
        rfl
  · have settles : measure none lead line ≠ .ok (1, none) := by
      intro measured
      have level := (measure_ok wide_none indent measured).2.2
      simp [Measures] at level
    simp [measure_one_iff, settles]

end Indent

namespace Line

variable {u : Indent} {unit settled : Option Indent} {line : Line} {number next taken : Nat}
  {raw : List Char} {below lines : List (List Char)}

theorem read_eq_ok_iff :
    Line.read unit number raw = .ok (line, settled) ↔
      line = ⟨number, line.depth, content raw⟩ ∧
        Indent.measure unit (lead raw) number = .ok (line.depth, settled) := by
  obtain ⟨place, depth, text⟩ := line
  unfold Line.read
  cases measured : Indent.measure unit (raw.takeWhile Text.isIndent) number with
  | error e => simp [lead, measured, bind, Except.bind]
  | ok p =>
      simp only [lead, measured, bind, Except.bind, pure, Except.pure, content]
      constructor
      · intro same
        cases same
        simp
      · rintro ⟨same, level⟩
        cases level
        simp_all

theorem read_inferred (wide : Indent.Wide (some u)) (shallow : line.depth ≤ 1) :
    Line.read (some u) number raw = .ok (line, some u) ↔
      Line.read none number raw = .ok (line, some u) ∨
        Line.read none number raw = .ok (line, none) := by
  rw [read_eq_ok_iff, read_eq_ok_iff, read_eq_ok_iff,
    Indent.measure_inferred wide number isIndent_of_mem_lead shallow, and_or_left]

theorem takeBlock_flush_iff {first : List Char} {others : List (List Char)}
    (wide : Indent.Wide unit) (found : below.dropWhile Text.allBlank = first :: others)
    (indented : lead first ≠ []) :
    takeBlock unit 0 next below = .ok ⟨lines, taken, settled⟩ ↔
      Indent.measure unit (lead first) (next + (below.takeWhile Text.allBlank).length) =
          .ok (1, settled) ∧
        lines = dropBlankEnd (blockLines (lead first) below) ∧
        taken = (blockLines (lead first) below).length := by
  have filled : (first.takeWhile Text.isIndent).isEmpty = false := by
    simpa [lead] using indented
  unfold takeBlock
  simp only [found, filled, Bool.false_eq_true, if_false]
  rw [← lead]
  cases measured : Indent.measure unit (lead first)
      (next + (below.takeWhile Text.allBlank).length) with
  | error e => simp [bind, Except.bind]
  | ok p =>
      obtain ⟨level, later⟩ := p
      have deeper : level ≠ 0 := by
        rintro rfl
        have measures := (Indent.measure_ok wide isIndent_of_mem_lead measured).2.2
        exact indented (Indent.eq_nil_of_measures_zero measures)
      have inside : ¬ level ≤ 0 := by omega
      simp only [bind, Except.bind, inside, if_false, pure, Except.pure]
      by_cases one : level = 1
      · subst one
        simp only [Nat.zero_add, Nat.lt_irrefl, if_false, Except.ok.injEq, Block.mk.injEq,
          Prod.mk.injEq, true_and]
        constructor
        · rintro ⟨rfl, rfl, rfl⟩
          exact ⟨rfl, rfl, rfl⟩
        · rintro ⟨rfl, rfl, rfl⟩
          exact ⟨rfl, rfl, rfl⟩
      · have further : 0 + 1 < level := by omega
        simp [further, one]

theorem takeBlock_inferred (wide : Indent.Wide (some u)) :
    takeBlock (some u) 0 next below = .ok ⟨lines, taken, some u⟩ ↔
      takeBlock none 0 next below = .ok ⟨lines, taken, some u⟩ ∨
        takeBlock none 0 next below = .ok ⟨lines, taken, none⟩ := by
  cases found : below.dropWhile Text.allBlank with
  | nil => simp [takeBlock, found]
  | cons first others =>
      by_cases flush : lead first = []
      · have empty : first.takeWhile Text.isIndent = [] := flush
        simp [takeBlock, found, empty]
      · rw [takeBlock_flush_iff wide found flush, takeBlock_flush_iff Indent.wide_none found flush,
          takeBlock_flush_iff Indent.wide_none found flush,
          Indent.measure_inferred wide _ isIndent_of_mem_lead (Nat.le_refl 1), or_and_right]

end Line

/-- A line without indentation is read alike with a unit and with none, which its block may settle. -/
theorem Header.read_inferred {u : Indent} {line : Line} {below : List (List Char)}
    {kind : NodeKind} {taken : Nat} (wide : Indent.Wide (some u)) (flush : line.depth = 0) :
    Header.read (some u) line below = .ok ⟨kind, taken, some u⟩ ↔
      Header.read none line below = .ok ⟨kind, taken, some u⟩ ∨
        Header.read none line below = .ok ⟨kind, taken, none⟩ := by
  have skips : Line.skipCount (some u) 0 below = Line.skipCount none 0 below := by
    unfold Line.skipCount Indent.width
    cases u <;> simp
  have blocks (name : String) (unit settled : Option Indent) :
      (Line.takeBlock unit 0 (line.number + 1) below >>= fun block =>
        .ok (Header.mk (.filter name (String.ofList (List.intercalate ['\n'] block.lines))) block.taken
          block.unit)) = (.ok ⟨kind, taken, settled⟩ : Except Error Header) ↔
      ∃ lines, Line.takeBlock unit 0 (line.number + 1) below = .ok ⟨lines, taken, settled⟩ ∧
        NodeKind.filter name (String.ofList (List.intercalate ['\n'] lines)) = kind := by
    constructor
    · intro read
      obtain ⟨⟨lines, count, later⟩, block, same⟩ := bind_ok read
      cases same
      exact ⟨lines, block, rfl⟩
    · rintro ⟨lines, block, rfl⟩
      rw [block]
      rfl
  unfold Header.read
  rw [flush]
  split
  · cases Tag.read line.number line.text below <;> simp [bind, Except.bind, pure, Except.pure]
  · cases Tag.read line.number line.text below <;> simp [bind, Except.bind, pure, Except.pure]
  · cases Tag.read line.number line.text below <;> simp [bind, Except.bind, pure, Except.pure]
  · simp
  · simp
  · simp
  · simp
  · simp [skips]
  · simp
  · simp
  · dsimp only
    split
    · simp
    · simp only [pure, Except.pure, blocks, Line.takeBlock_inferred wide, or_and_right, exists_or]
  · simp
  · simp

namespace Outline

theorem length_of_descend {o next : Outline} {depth line : Nat}
    (descends : o.descend depth line = .ok next) :
    depth ≤ o.path.length ∧ next.path.length = depth := by
  unfold descend at descends
  split at descends
  · cases descends
  · next deep =>
      dsimp only at descends
      split at descends
      · cases descends
      · cases descends
        rw [length_path_closeTo]
        omega

end Outline

namespace Document

variable {u : Indent} {unit : Option Indent} {o next : Outline} {number taken : Nat}
  {raw : List Char} {below lines : List (List Char)} {line : Line} {header : Header}
  {forest : Forest}

theorem readNode_eq_ok_iff :
    readNode unit o number raw below = .ok (line, next, header) ↔
      ∃ settled, Line.read unit number raw = .ok (line, settled) ∧
        o.descend line.depth number = .ok next ∧ Header.read settled line below = .ok header := by
  constructor
  · exact readNode_ok
  · rintro ⟨settled, first, descends, heads⟩
    simp only [readNode, first, descends, heads, bind, Except.bind]
    rfl

theorem readLines_eq_ok_iff (text : Text.allBlank raw = false) :
    readLines unit o number 0 (raw :: below) = .ok forest ↔
      ∃ line next header, readNode unit o number raw below = .ok (line, next, header) ∧
        readLines header.unit (next.push ⟨header.kind, number, []⟩) (number + 1) header.taken
          below = .ok forest := by
  constructor
  · intro read
    rw [readLines, text] at read
    obtain ⟨⟨line, settled⟩, first, read⟩ := bind_ok read
    obtain ⟨next, descends, read⟩ := bind_ok read
    obtain ⟨header, heads, read⟩ := bind_ok read
    exact ⟨line, next, header, readNode_eq_ok_iff.mpr ⟨settled, first, descends, heads⟩, read⟩
  · rintro ⟨line, next, header, node, rest⟩
    obtain ⟨settled, first, descends, heads⟩ := readNode_eq_ok_iff.mp node
    rw [readLines, text]
    simp only [first, descends, heads, bind, Except.bind]
    exact rest

theorem units_of_readNode (wide : Indent.Wide unit)
    (read : readNode unit o number raw below = .ok (line, next, header)) :
    Indent.Keeps unit header.unit ∧ Indent.Wide header.unit ∧
      (header.unit = none → line.depth = 0) := by
  obtain ⟨settled, first, -, heads⟩ := readNode_ok read
  obtain ⟨content, keepsFirst, wideFirst, measured⟩ := Line.read_ok wide first
  obtain ⟨keeps, wideHeader, -, -⟩ := Header.read_ok wideFirst content measured heads
  refine ⟨keepsFirst.trans keeps, wideHeader, fun open_ => ?_⟩
  cases settled with
  | none => exact measured.2
  | some v =>
      have stays := keeps v rfl
      rw [open_] at stays
      cases stays

/-- Below at most one open node, a node is read alike with a unit and with none. -/
theorem readNode_inferred {kind : NodeKind} (wide : Indent.Wide (some u))
    (shallow : o.path.length ≤ 1) :
    readNode (some u) o number raw below = .ok (line, next, ⟨kind, taken, some u⟩) ↔
      readNode none o number raw below = .ok (line, next, ⟨kind, taken, some u⟩) ∨
        readNode none o number raw below = .ok (line, next, ⟨kind, taken, none⟩) := by
  simp only [readNode_eq_ok_iff]
  constructor
  · rintro ⟨settled, first, descends, heads⟩
    obtain ⟨-, keeps, -, -⟩ := Line.read_ok wide first
    obtain rfl := keeps u rfl
    have deep := (Outline.length_of_descend descends).1
    rcases (Line.read_inferred wide (deep.trans shallow)).mp first with settles | open_
    · exact .inl ⟨some u, settles, descends, heads⟩
    · have flush := (Line.read_ok Indent.wide_none open_).2.2.2.2
      rcases (Header.read_inferred wide flush).mp heads with settles | never
      · exact .inl ⟨none, open_, descends, settles⟩
      · exact .inr ⟨none, open_, descends, never⟩
  · rintro (⟨settled, first, descends, heads⟩ | ⟨settled, first, descends, heads⟩)
    · have deep := (Outline.length_of_descend descends).1
      cases settled with
      | none =>
          have flush := (Line.read_ok Indent.wide_none first).2.2.2.2
          refine ⟨some u, ?_, descends, ?_⟩
          · exact (Line.read_inferred wide (deep.trans shallow)).mpr (.inr first)
          · exact (Header.read_inferred wide flush).mpr (.inl heads)
      | some v =>
          obtain ⟨content, -, wideFirst, measured⟩ := Line.read_ok Indent.wide_none first
          obtain ⟨keeps, -, -, -⟩ := Header.read_ok wideFirst content measured heads
          obtain rfl : u = v := Option.some.inj (keeps v rfl)
          exact ⟨some u, (Line.read_inferred wide (deep.trans shallow)).mpr (.inl first), descends,
            heads⟩
    · have deep := (Outline.length_of_descend descends).1
      obtain ⟨content, -, wideFirst, measured⟩ := Line.read_ok Indent.wide_none first
      obtain ⟨keeps, -, -, -⟩ := Header.read_ok wideFirst content measured heads
      cases settled with
      | none =>
          have flush := measured.2
          refine ⟨some u, ?_, descends, ?_⟩
          · exact (Line.read_inferred wide (deep.trans shallow)).mpr (.inr first)
          · exact (Header.read_inferred wide flush).mpr (.inr heads)
      | some v => cases keeps v rfl

/-- What is read with a unit is read alike with none, as long as no node stands below another. -/
theorem readLines_of_preset (wide : Indent.Wide (some u)) (shallow : o.path.length ≤ 1)
    (read : readLines (some u) o number taken lines = .ok forest) :
    readLines none o number taken lines = .ok forest := by
  induction lines generalizing o number taken with
  | nil =>
      rw [readLines] at read ⊢
      exact read
  | cons raw below ih =>
      cases taken with
      | succ taken =>
          rw [readLines] at read ⊢
          exact ih shallow read
      | zero =>
          cases text : Text.allBlank raw with
          | true =>
              rw [readLines_blank text] at read ⊢
              exact ih shallow read
          | false =>
              obtain ⟨line, next, ⟨kind, taken, last⟩, node, rest⟩ :=
                (readLines_eq_ok_iff text).mp read
              obtain ⟨keeps, -, -⟩ := units_of_readNode wide node
              obtain rfl : last = some u := keeps u rfl
              rw [readLines_eq_ok_iff text]
              rcases (readNode_inferred wide shallow).mp node with settles | open_
              · exact ⟨line, next, _, settles, rest⟩
              · have flush := (units_of_readNode Indent.wide_none open_).2.2 rfl
                obtain ⟨settled, -, descends, -⟩ := readNode_ok open_
                have length := (Outline.length_of_descend descends).2
                refine ⟨line, next, _, open_, ih ?_ rest⟩
                simp [Outline.push, length, flush]

/-- What is read without a unit is read alike with the one that it settles on. -/
theorem exists_preset_of_readLines (shallow : o.path.length ≤ 1)
    (read : readLines none o number taken lines = .ok forest) :
    ∃ u, Indent.Wide (some u) ∧ readLines (some u) o number taken lines = .ok forest := by
  induction lines generalizing o number taken with
  | nil =>
      rw [readLines] at read
      exact ⟨.tab, Indent.wide_tab, by rw [readLines]; exact read⟩
  | cons raw below ih =>
      cases taken with
      | succ taken =>
          rw [readLines] at read
          obtain ⟨u, wide, rest⟩ := ih shallow read
          exact ⟨u, wide, by rw [readLines]; exact rest⟩
      | zero =>
          cases text : Text.allBlank raw with
          | true =>
              rw [readLines_blank text] at read
              obtain ⟨u, wide, rest⟩ := ih shallow read
              exact ⟨u, wide, by rw [readLines_blank text]; exact rest⟩
          | false =>
              obtain ⟨line, next, ⟨kind, taken, last⟩, node, rest⟩ :=
                (readLines_eq_ok_iff text).mp read
              obtain ⟨-, wideLast, flush⟩ := units_of_readNode Indent.wide_none node
              cases last with
              | some u =>
                  refine ⟨u, wideLast, (readLines_eq_ok_iff text).mpr ?_⟩
                  exact ⟨line, next, _, (readNode_inferred wideLast shallow).mpr (.inl node), rest⟩
              | none =>
                  obtain ⟨settled, -, descends, -⟩ := readNode_ok node
                  have length := (Outline.length_of_descend descends).2
                  have pushed : (next.push ⟨kind, number, []⟩).path.length ≤ 1 := by
                    simp [Outline.push, length, flush rfl]
                  obtain ⟨u, wide, after⟩ := ih pushed rest
                  refine ⟨u, wide, (readLines_eq_ok_iff text).mpr ?_⟩
                  exact ⟨line, next, _, (readNode_inferred wide shallow).mpr (.inr node), after⟩

end Document

def IndentUnit.IsPreset : IndentUnit → Prop
  | .auto => False
  | .tab => True
  | .spaces width => 0 < width

theorem Indent.exists_of_isPreset {unit : IndentUnit} (isPreset : unit.IsPreset) :
    ∃ u, preset unit = some u ∧ Wide (some u) := by
  cases unit with
  | auto => cases isPreset
  | tab => exact ⟨tab, rfl, wide_tab⟩
  | spaces width =>
      have positive : width ≠ 0 := Nat.ne_of_gt isPreset
      refine ⟨spaces width, if_neg positive, ?_⟩
      rintro _ ⟨⟩
      exact isPreset

theorem Indent.exists_isPreset {u : Indent} (wide : Wide (some u)) :
    ∃ unit : IndentUnit, unit.IsPreset ∧ preset unit = some u := by
  cases u with
  | tab => exact ⟨.tab, trivial, rfl⟩
  | spaces width =>
      have positive : 0 < width := wide width rfl
      exact ⟨.spaces width, positive, if_neg (Nat.ne_of_gt positive)⟩

/-- A document that settles its unit by itself is one that is read with some unit preset, and to
preset no spaces is to leave the unit to the document. -/
theorem Document.read_auto_iff (source : String) :
    (∀ forest, Document.read .auto source = .ok forest ↔
      ∃ unit : IndentUnit, unit.IsPreset ∧ Document.read unit source = .ok forest) ∧
    Document.read (.spaces 0) source = Document.read .auto source := by
  have empty : Outline.empty.path.length ≤ 1 := Nat.zero_le 1
  refine ⟨fun forest => ?_, rfl⟩
  constructor
  · intro read
    obtain ⟨u, wide, preset⟩ := exists_preset_of_readLines empty read
    obtain ⟨unit, isPreset, chosen⟩ := Indent.exists_isPreset wide
    refine ⟨unit, isPreset, ?_⟩
    rw [Document.read, chosen]
    exact preset
  · rintro ⟨unit, isPreset, read⟩
    obtain ⟨u, chosen, wide⟩ := Indent.exists_of_isPreset isPreset
    rw [Document.read, chosen] at read
    exact readLines_of_preset wide empty read

end Haml
