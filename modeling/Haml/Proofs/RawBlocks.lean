import Haml.Proofs.Arrival
import Haml.Proofs.Refusal
/-! Raw blocks: which lines nested in one are left to be read as lines of their own. -/

namespace Haml

namespace Indent

theorem replicate_prefix {n m : Nat} (le : n ≤ m) (c : Char) :
    List.replicate n c <+: List.replicate m c := by
  refine ⟨List.replicate (m - n) c, ?_⟩
  rw [List.replicate_append_replicate, Nat.add_sub_cancel' le]

theorem Measures.starts {unit : Option Indent} {lead deeper : List Char} {depth more : Nat}
    (measured : Measures unit lead depth) (further : Measures unit deeper more)
    (le : depth ≤ more) : lead <+: deeper := by
  match unit, measured, further with
  | none, measured, _ =>
      rw [measured.1]
      exact List.nil_prefix
  | some tab, measured, further =>
      rw [measured, further]
      exact replicate_prefix le '\t'
  | some (spaces width), measured, further =>
      rw [measured.2, further.2]
      exact replicate_prefix (Nat.mul_le_mul_right width le) ' '

theorem Measures.eq_zero {unit : Option Indent} {depth : Nat} (measured : Measures unit [] depth) :
    depth = 0 := by
  match unit, measured with
  | none, measured => exact measured.2
  | some tab, measured =>
      have count := congrArg List.length measured
      rw [List.length_replicate] at count
      exact count.symm
  | some (spaces width), measured =>
      have count := congrArg List.length measured.2
      rw [List.length_replicate] at count
      exact (Nat.mul_eq_zero.mp count.symm).resolve_right (Nat.ne_of_gt measured.1)

theorem Measures.le_of_width {unit settled : Option Indent} {header lead : List Char}
    {depth more : Nat} (measured : Measures unit header depth) (further : Measures settled lead more)
    (keeps : Keeps unit settled) (le : lead.length ≤ width unit depth) : more ≤ depth := by
  match unit, measured with
  | none, _ =>
      obtain rfl := List.length_eq_zero_iff.mp (Nat.le_zero.mp le)
      rw [further.eq_zero]
      exact Nat.zero_le depth
  | some tab, _ =>
      rw [keeps tab rfl] at further
      rw [further, List.length_replicate] at le
      exact le
  | some (spaces width), measured =>
      rw [keeps (spaces width) rfl] at further
      rw [further.2, List.length_replicate] at le
      exact Nat.le_of_mul_le_mul_right le measured.1

end Indent

namespace Line

theorem number_of_read {unit settled : Option Indent} {number : Nat} {raw : List Char} {line : Line}
    (read : Line.read unit number raw = .ok (line, settled)) : line.number = number := by
  obtain ⟨measured, -, done⟩ := bind_ok read
  cases done
  rfl

/-- The lines of a block end before one that is not blank and does not start as the block does. -/
theorem blockLines_ends (lead : List Char) (below : List (List Char)) :
    below.drop (blockLines lead below).length = [] ∨
      ∃ raw rest, below.drop (blockLines lead below).length = raw :: rest ∧
        Text.allBlank raw = false ∧ ¬ lead <+: raw := by
  induction below with
  | nil => exact .inl rfl
  | cons raw below ih =>
      rw [blockLines]
      split
      · exact ih
      · next text =>
          split
          · exact ih
          · next other =>
              refine .inr ⟨raw, below, rfl, by simpa using text, ?_⟩
              rintro ⟨rest, rfl⟩
              rw [List.isPrefixOf?_eq_some_iff_append_eq.mpr rfl] at other
              cases other

theorem not_prefix_of_blockLines {lead raw : List Char} {below blanks rest : List (List Char)}
    (left : below.drop (blockLines lead below).length = blanks ++ raw :: rest)
    (blank : ∀ r ∈ blanks, Text.allBlank r = true) : ¬ lead <+: raw := by
  rcases blockLines_ends lead below with ended | ⟨ender, after, here, text, other⟩
  · rw [ended] at left
    exact absurd left.symm (List.append_ne_nil_of_right_ne_nil blanks (List.cons_ne_nil raw rest))
  · rw [here] at left
    cases blanks with
    | nil =>
        cases left
        exact other
    | cons b bs =>
        cases left
        rw [blank ender (List.mem_cons_self ..)] at text
        cases text

theorem dropWhile_blanks {blanks rest : List (List Char)} {raw : List Char}
    (blank : ∀ r ∈ blanks, Text.allBlank r = true) (text : Text.allBlank raw = false) :
    (blanks ++ raw :: rest).dropWhile Text.allBlank = raw :: rest := by
  rw [List.dropWhile_append_of_pos blank, List.dropWhile_cons_of_neg]
  rw [text]
  exact Bool.false_ne_true

section Left

variable {unit settled : Option Indent} {depth number : Nat} {below blanks rest : List (List Char)}
  {raw : List Char} {line : Line}

/-- A filter leaves no line that is nested deeper than it is. -/
theorem le_of_takeBlock {next : Nat} {block : Block} (wide : Indent.Wide unit)
    (taken : takeBlock unit depth next below = .ok block)
    (left : below.drop block.taken = blanks ++ raw :: rest)
    (blank : ∀ r ∈ blanks, Text.allBlank r = true) (text : Text.allBlank raw = false)
    (read : Line.read block.unit number raw = .ok (line, settled)) : line.depth ≤ depth := by
  obtain ⟨⟨deep, later⟩, measure, done⟩ := bind_ok read
  cases done
  change Indent.measure block.unit (lead raw) number = _ at measure
  rcases takeBlock_cases taken with
    ⟨rfl, shallow⟩ | ⟨start, others, place, settled, -, measureStart, rfl⟩
  · -- Nothing is taken, so the line is the one that the filter has measured.
    rw [List.drop_zero] at left
    subst left
    change Indent.measure unit (lead raw) number = _ at measure
    rcases shallow raw rest (dropWhile_blanks blank text) with
      flush | ⟨place, measured, after, same, le⟩
    · rw [flush] at measure
      cases measure
      exact Nat.zero_le depth
    · rw [(Indent.measure_together _ number unit _).of_ok same] at measure
      cases measure
      exact le
  · obtain ⟨-, wideAfter, measuresStart⟩ := Indent.measure_ok wide isIndent_of_mem_lead measureStart
    obtain ⟨keeps, wideLater, measures⟩ := Indent.measure_ok wideAfter isIndent_of_mem_lead measure
    by_contra further
    have starts := (measuresStart.keeps keeps wideLater).starts measures (Nat.lt_of_not_le further)
    exact not_prefix_of_blockLines left blank (starts.trans (List.takeWhile_prefix _))

theorem endsSkip_of_skipCount (left : below.drop (skipCount unit depth below) = raw :: rest) :
    endsSkip (Indent.width unit depth) raw = true := by
  induction below with
  | nil => cases left
  | cons first below ih =>
      unfold skipCount at left ih
      rw [List.takeWhile_cons] at left
      split at left
      · exact ih left
      · next stops =>
          cases left
          simpa using stops

/-- A silent comment leaves a line that is nested deeper than it is only after a blank one. -/
theorem le_or_blank_of_skipCount {header : List Char} (wide : Indent.Wide unit)
    (measured : Indent.Measures unit (lead header) depth)
    (left : below.drop (skipCount unit depth below) = blanks ++ raw :: rest)
    (read : Line.read unit number raw = .ok (line, settled)) :
    line.depth ≤ depth ∨ ∃ ender others, blanks = ender :: others ∧
      (lead ender).length ≤ (lead header).length ∧ ∃ c ∈ ender, Text.isIndent c = false := by
  cases blanks with
  | nil =>
      left
      have last := endsSkip_of_skipCount left
      simp only [endsSkip, Bool.and_eq_true, decide_eq_true_eq] at last
      obtain ⟨-, keeps, -, measures⟩ := read_ok wide read
      exact measured.le_of_width measures keeps last.2
  | cons ender others =>
      right
      have last := endsSkip_of_skipCount left
      simp only [endsSkip, Bool.and_eq_true, decide_eq_true_eq, Bool.not_eq_true',
        List.isEmpty_eq_false_iff] at last
      refine ⟨ender, others, rfl, ?_, ?_⟩
      · rw [length_lead_of_measures measured]
        exact last.2
      · by_contra none
        apply last.1
        refine List.dropWhile_eq_nil_iff.mpr fun c member => ?_
        by_contra other
        exact none ⟨c, member, Bool.eq_false_iff.mpr other⟩

end Left

end Line

theorem NodeKind.nestingFault?_of_mayNest {kind : NodeKind} (allowed : kind.MayNest) :
    kind.nestingFault? = none := by
  cases kind with
  | tag t =>
      obtain ⟨empty, opened⟩ := allowed
      simp only [nestingFault?, empty, opened, Option.isSome_none, Bool.false_eq_true, if_false]
  | script code => rfl
  | comment c =>
      have empty : c.text = none := allowed
      simp only [nestingFault?, empty, Option.isSome_none, Bool.false_eq_true, if_false]
  | text text => cases allowed
  | output code escaping => cases allowed
  | doctype argument => cases allowed
  | filter name body => cases allowed
  | silentComment => cases allowed

namespace Outline

theorem kinds_close (o : Outline) : o.close.path.map Node.kind = (o.path.map Node.kind).drop 1 := by
  obtain ⟨roots, path⟩ := o
  match path with
  | [] => rfl
  | [n] => rfl
  | n :: parent :: path => rfl

theorem kinds_closeTo (o : Outline) (depth : Nat) :
    (o.closeTo depth).path.map Node.kind =
      (o.path.map Node.kind).drop (o.path.length - depth) := by
  unfold closeTo
  induction o.path.length - depth with
  | zero => rfl
  | succ count ih => rw [Nat.repeat, kinds_close, ih, List.drop_drop]

theorem descend_of_rawBlock {o : Outline} {kind : NodeKind} {number : Nat} (line : Nat)
    (raw : kind.nestingFault? = some .rawBlock) :
    (o.push ⟨kind, number, []⟩).descend (o.path.length + 1) line =
      .error (.illegalNesting line .rawBlock) := by
  have length : (o.push ⟨kind, number, []⟩).path.length = o.path.length + 1 := rfl
  unfold descend closeTo
  rw [length, if_neg (Nat.lt_irrefl _), Nat.sub_self, Nat.repeat]
  simp only [push, List.head?_cons, Option.bind_some, raw]

theorem kind_of_closeTo {o : Outline} {depth : Nat} {parent : Node} {rest : List Node}
    (closed : (o.closeTo depth).path = parent :: rest) :
    ∃ top others, o.path = top :: others ∧
      (o.path.length ≤ depth ∧ parent.kind = top.kind ∨ ∃ n ∈ others, n.kind = parent.kind) := by
  have kinds := kinds_closeTo o depth
  rw [closed] at kinds
  cases path : o.path with
  | nil =>
      rw [path, List.map_nil, List.drop_nil] at kinds
      cases kinds
  | cons top others =>
      refine ⟨top, others, rfl, ?_⟩
      rw [path] at kinds
      cases beyond : (top :: others).length - depth with
      | zero =>
          rw [beyond] at kinds
          injection kinds with same _
          exact .inl ⟨Nat.le_of_sub_eq_zero beyond, same⟩
      | succ count =>
          rw [beyond, List.map_cons, List.map_cons, List.drop_succ_cons] at kinds
          have among : parent.kind ∈ (others.map Node.kind).drop count := by
            rw [← kinds]
            exact List.mem_cons_self ..
          exact .inr (List.mem_map.mp (List.mem_of_mem_drop among))

/-- Only the latest node can refuse a line as nested in its raw block. -/
theorem descend_rawBlock {o : Outline} {depth line number : Nat} (nested : o.WellNested)
    (refused : o.descend depth line = .error (.illegalNesting number .rawBlock)) :
    number = line ∧ ∃ top others, o.path = top :: others ∧ depth = o.path.length ∧
      top.kind.nestingFault? = some .rawBlock := by
  unfold descend at refused
  split at refused
  · cases refused
  · next deep =>
      simp only at refused
      split at refused
      · next fault faulty =>
          cases refused
          refine ⟨rfl, ?_⟩
          obtain ⟨parent, latest, fault⟩ := Option.bind_eq_some_iff.mp faulty
          obtain ⟨rest, closed⟩ := List.head?_eq_some_iff.mp latest
          obtain ⟨top, others, path, ⟨short, same⟩ | ⟨n, member, same⟩⟩ := kind_of_closeTo closed
          · exact ⟨top, others, path, Nat.le_antisymm (Nat.le_of_not_lt deep) short, same ▸ fault⟩
          · have allowed := nested.parents n (by rw [path]; exact member)
            rw [← same, NodeKind.nestingFault?_of_mayNest allowed] at fault
            cases fault
      · cases refused

end Outline

theorem Header.read_rawBlock {unit : Option Indent} {line : Line} {below : List (List Char)}
    {header : Header} (read : Header.read unit line below = .ok header)
    (raw : header.kind.nestingFault? = some .rawBlock) :
    (∃ block, Line.takeBlock unit line.depth (line.number + 1) below = .ok block ∧
      header.taken = block.taken ∧ header.unit = block.unit) ∨
    header = ⟨.silentComment, Line.skipCount unit line.depth below, unit⟩ := by
  have tagged (read : (Tag.read line.number line.text below >>= fun p =>
      .ok (Header.mk (.tag p.1) (below.length - p.2.length) unit)) = .ok header) : False := by
    obtain ⟨⟨t, left⟩, -, rest⟩ := bind_ok read
    cases rest
    simp only [NodeKind.nestingFault?] at raw
    split at raw
    · cases raw
    · split at raw
      · cases raw
      · cases raw
  have commented (c : Comment) (same : header.kind = .comment c) : False := by
    rw [same] at raw
    simp only [NodeKind.nestingFault?] at raw
    split at raw
    · cases raw
    · cases raw
  unfold Header.read at read
  split at read
  · exact (tagged read).elim
  · exact (tagged read).elim
  · exact (tagged read).elim
  · cases read
    cases raw
  · cases read
    cases raw
  · cases read
    cases raw
  · cases read
    cases raw
  · cases read
    exact .inr rfl
  · cases read
    cases raw
  · cases read
    exact (commented _ rfl).elim
  · simp only at read
    split at read
    · cases read
    · obtain ⟨block, taken, rest⟩ := bind_ok read
      cases rest
      exact .inl ⟨block, taken, rfl, rfl⟩
  · cases read
    cases raw
  · cases read
    cases raw

namespace Document

/-- A line of a skipped block that is left to be read, one level deeper than the silent comment: the
comment stands on the line `raw`, what it skips ends before a line of white space that is indented
no further than it, and nothing but blank lines follows up to the line that is left. -/
inductive LeavesNested (comment : Line) (raw : List Char) (header : Header)
    (below : List (List Char)) (number : Nat) : Prop
  | intro {ender deeper : List Char} {blanks rest : List (List Char)} {line : Line}
      {settled : Option Indent} :
      header.kind = .silentComment →
      below.drop header.taken = ender :: (blanks ++ deeper :: rest) →
      Text.allBlank ender = true → (∃ c ∈ ender, Text.isIndent c = false) →
      (Line.lead ender).length ≤ (Line.lead raw).length →
      (∀ r ∈ blanks, Text.allBlank r = true) → Text.allBlank deeper = false →
      number = comment.number + 1 + header.taken + 1 + blanks.length →
      Line.read header.unit number deeper = .ok (line, settled) →
      line.depth = comment.depth + 1 →
      LeavesNested comment raw header below number

/-- The only failure of a node for a raw block is that of its nesting. -/
theorem readNode_rawBlock {unit : Option Indent} {o : Outline} {number place : Nat}
    {raw : List Char} {below : List (List Char)}
    (refused : readNode unit o number raw below = .error (.illegalNesting place .rawBlock)) :
    ∃ line settled, Line.read unit number raw = .ok (line, settled) ∧
      o.descend line.depth number = .error (.illegalNesting place .rawBlock) := by
  unfold readNode at refused
  cases read : Line.read unit number raw with
  | error e =>
      rw [read] at refused
      cases refused
      have kind := Line.read_fails unit number raw _ read
      cases kind
  | ok p =>
      obtain ⟨line, settled⟩ := p
      rw [read] at refused
      refine ⟨line, settled, rfl, ?_⟩
      cases descends : o.descend line.depth number with
      | error e =>
          simp only [bind, Except.bind, descends] at refused
          cases refused
          rfl
      | ok next =>
          simp only [bind, Except.bind, descends] at refused
          cases heads : Header.read settled line below with
          | error e =>
              rw [heads] at refused
              cases refused
              rcases Header.read_fails settled line below _ heads with tag | filter | indent
              · cases tag
              · obtain ⟨name, other⟩ := filter
                cases other
              · obtain ⟨other, -, kind⟩ := indent
                cases kind
          | ok header =>
              rw [heads] at refused
              cases refused

section Left

variable {preset : Option Indent} {start : List (List Char)} {number : Nat}

/-- A line that is refused as nested in a raw block is left by a silent comment above. -/
theorem exists_leavesNested (wide : Indent.Wide preset)
    (refused : readLines preset .empty 1 0 start = .error (.illegalNesting number .rawBlock)) :
    ∃ unit o place raw below comment next header,
      Arrives preset start unit o place (raw :: below) ∧ Text.allBlank raw = false ∧
      readNode unit o place raw below = .ok (comment, next, header) ∧
      LeavesNested comment raw header below number := by
  obtain ⟨unit, o, here, deeper, rest, arrives, text, refused⟩ := Arrives.start.exists_of_error refused
  obtain ⟨line, settled, read, descends⟩ := readNode_rawBlock refused
  obtain ⟨wideHere, nested⟩ := arrives.sound wide
  obtain ⟨rfl, top, others, path, level, fault⟩ := Outline.descend_rawBlock nested descends
  have opened : o.path ≠ [] := by
    rw [path]
    exact List.cons_ne_nil top others
  obtain ⟨before, o', place, raw, below, comment, next, header, blanks, above, textAbove, readAbove,
    rfl, rfl, left, blank, count⟩ := arrives.latest opened
  refine ⟨before, o', place, raw, below, comment, next, header, above, textAbove, readAbove, ?_⟩
  obtain ⟨wideBefore, nestedBefore⟩ := above.sound wide
  obtain ⟨unit, first, descendsAbove, heads⟩ := readNode_ok readAbove
  obtain ⟨content, keeps, wideUnit, measured⟩ := Line.read_ok wideBefore first
  obtain ⟨-, length, -, -⟩ := Outline.descend_ok nestedBefore descendsAbove
  replace level : line.depth = comment.depth + 1 := by
    rw [level, ← length]
    rfl
  cases path
  rcases header.read_rawBlock heads fault with filter | skips
  · obtain ⟨block, taken, count, unit⟩ := filter
    rw [count] at left
    rw [unit] at read
    have shallow := Line.le_of_takeBlock wideUnit taken left blank text read
    omega
  · subst skips
    rcases Line.le_or_blank_of_skipCount wideUnit measured left read with shallow | ended
    · omega
    · obtain ⟨ender, others, rfl, short, other⟩ := ended
      obtain ⟨blankEnder, blankOthers⟩ := List.forall_mem_cons.mp blank
      refine .intro rfl left blankEnder other short blankOthers text ?_ read level
      rw [Line.number_of_read first, count, List.length_cons]
      omega

/-- A line that a silent comment leaves although it is nested in it is refused. -/
theorem refused_of_leavesNested {unit : Option Indent} {o next : Outline} {place : Nat}
    {raw : List Char} {below : List (List Char)} {comment : Line} {header : Header}
    (arrives : Arrives preset start unit o place (raw :: below)) (wide : Indent.Wide preset)
    (text : Text.allBlank raw = false)
    (read : readNode unit o place raw below = .ok (comment, next, header))
    (leaves : LeavesNested comment raw header below number) :
    readLines preset .empty 1 0 start = .error (.illegalNesting number .rawBlock) := by
  obtain ⟨kind, left, blankEnder, -, -, blank, textDeeper, count, readDeeper, level⟩ := leaves
  obtain ⟨wideHere, nested⟩ := arrives.sound wide
  obtain ⟨settled, first, descends, heads⟩ := readNode_ok read
  obtain ⟨-, length, -, -⟩ := Outline.descend_ok nested descends
  rw [Line.number_of_read first] at count
  subst count
  have after := arrives.node text read
  rw [left] at after
  have there := (after.blank blankEnder).blanks rfl blank
  have raw : header.kind.nestingFault? = some .rawBlock := by
    rw [kind]
    rfl
  rw [there.readLines_eq, readLines_node textDeeper, readNode, readDeeper]
  simp only [bind, Except.bind, level, ← length, Outline.descend_of_rawBlock _ raw]

end Left

/-- Reading refuses a line as nested in a raw block exactly if a silent comment leaves it, whose
skipped lines have ended at a line of white space other than indentation; so it never does if blank
lines hold no other characters than spaces and tabs. -/
theorem read_rawBlock_iff (unit : IndentUnit) (source : String) :
    (∀ number, Document.read unit source = .error (.illegalNesting number .rawBlock) ↔
      ∃ before o place raw below comment next header,
        Arrives (Indent.preset unit) (Text.physicalLines source.toList) before o place
          (raw :: below) ∧
        Text.allBlank raw = false ∧
        readNode before o place raw below = .ok (comment, next, header) ∧
        LeavesNested comment raw header below number) ∧
    ((∀ raw ∈ Text.physicalLines source.toList, Text.allBlank raw = true →
        ∀ c ∈ raw, Text.isIndent c = true) →
      ∀ number, Document.read unit source ≠ .error (.illegalNesting number .rawBlock)) := by
  have wide := Indent.wide_preset unit
  constructor
  · intro number
    constructor
    · exact exists_leavesNested wide
    · rintro ⟨before, o, place, raw, below, comment, next, header, arrives, text, read, leaves⟩
      exact refused_of_leavesNested arrives wide text read leaves
  · intro plain number refused
    obtain ⟨before, o, place, raw, below, comment, next, header, arrives, -, -, leaves⟩ :=
      exists_leavesNested wide refused
    obtain ⟨-, left, blank, ⟨c, inside, other⟩, -⟩ := leaves
    have among : _ ∈ below := List.mem_of_mem_drop (left ▸ List.mem_cons_self ..)
    have member := arrives.subset _ (List.mem_cons_of_mem raw among)
    rw [plain _ member blank c inside] at other
    cases other

def leavingPage : String := "-# note\n\u00a0\n  deep\n%p x"

theorem leavingPage_refused :
    Document.read .auto leavingPage = .error (.illegalNesting 3 .rawBlock) := by
  rfl

end Document

end Haml
