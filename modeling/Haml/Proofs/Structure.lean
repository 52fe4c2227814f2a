import Haml.Proofs.Outline
import Haml.Proofs.Region
import Mathlib.Logic.ExistsUnique
/-! The structure of documents: each line that is not blank has one place in the forest, at the
depth of its indentation. -/

namespace Haml

/-- Whether the lines of `region`, right below the line `raw`, belong to the node of that line: the
raw block of a filter, lines skipped under a silent comment, or lines that continue a hash. -/
def NodeKind.Owns (unit : Option Indent) (depth : Nat) (raw : List Char)
    (region : List (List Char)) : NodeKind → Prop
  | .filter _ body => Line.RawBlock unit depth region body
  | .silentComment => ∀ other ∈ region, Line.Skipped raw other
  | .tag _ => ∀ j < region.length, Tag.Unclosed (Tag.joined (Line.content raw) (region.take j))
  | .text _ | .script _ | .output .. | .comment _ | .doctype _ => region = []

theorem NodeKind.Owns.keeps {unit later : Option Indent} {depth : Nat} {raw : List Char}
    {region : List (List Char)} {kind : NodeKind} (owns : kind.Owns unit depth raw region)
    (keeps : Indent.Keeps unit later) (wide : Indent.Wide later) :
    kind.Owns later depth raw region := by
  cases kind with
  | filter name body =>
      obtain ⟨lead, measured, starts, text⟩ := owns
      exact ⟨lead, fun filled => (measured filled).keeps keeps wide, starts, text⟩
  | _ => exact owns

theorem Tag.owns_of_read {unit : Option Indent} {depth number : Nat} {raw : List Char}
    {below left : List (List Char)} {t : Tag}
    (read : Tag.read number (Line.content raw) below = .ok (t, left)) :
    (NodeKind.tag t).Owns unit depth raw (below.take (below.length - left.length)) := by
  obtain ⟨n, bound, same, each⟩ := Tag.read_ok read
  have taken : below.length - left.length = n := by
    rw [same, List.length_drop]
    omega
  intro j lt
  rw [taken, List.length_take, Nat.min_eq_left bound] at lt
  rw [taken, List.take_take, Nat.min_eq_left (Nat.le_of_lt lt)]
  exact each j lt

/-- A header takes only lines that belong to its node. -/
theorem Header.read_ok {unit : Option Indent} {line : Line} {raw : List Char}
    {below : List (List Char)} {header : Header} (wide : Indent.Wide unit)
    (content : line.text = Line.content raw)
    (measured : Indent.Measures unit (Line.lead raw) line.depth)
    (read : Header.read unit line below = .ok header) :
    Indent.Keeps unit header.unit ∧ Indent.Wide header.unit ∧ header.taken ≤ below.length ∧
      header.kind.Owns header.unit line.depth raw (below.take header.taken) := by
  have alone {kind : NodeKind} (taken : kind.Owns unit line.depth raw []) :
      Indent.Keeps unit unit ∧ Indent.Wide unit ∧ 0 ≤ below.length ∧
        kind.Owns unit line.depth raw (below.take 0) :=
    ⟨.same unit, wide, Nat.zero_le _, taken⟩
  have tagged (read : (Tag.read line.number (Line.content raw) below >>= fun p =>
      .ok (Header.mk (.tag p.1) (below.length - p.2.length) unit)) = .ok header) :
      Indent.Keeps unit header.unit ∧ Indent.Wide header.unit ∧ header.taken ≤ below.length ∧
        header.kind.Owns header.unit line.depth raw (below.take header.taken) := by
    obtain ⟨⟨t, left⟩, tag, rest⟩ := bind_ok read
    cases rest
    exact ⟨.same unit, wide, Nat.sub_le _ _, Tag.owns_of_read tag⟩
  unfold Header.read at read
  rw [content] at read
  split at read
  · exact tagged read
  · exact tagged read
  · exact tagged read
  · cases read
    exact alone rfl
  · cases read
    exact alone rfl
  · cases read
    exact alone rfl
  · cases read
    exact alone rfl
  · cases read
    have skips := Line.skipped_of_skipCount measured below
    exact ⟨.same unit, wide, skips⟩
  · cases read
    exact alone rfl
  · cases read
    exact alone rfl
  · simp only at read
    split at read
    · cases read
    · obtain ⟨block, taken, rest⟩ := bind_ok read
      cases rest
      exact Line.takeBlock_ok wide taken
  · cases read
    exact alone rfl
  · cases read
    exact alone rfl

namespace Document

/-- How the lines from `number` on are shared among the entries of a forest, each given with the
number of lines that it takes; the first `taken` lines belong to an entry above. -/
inductive Layout (unit : Option Indent) :
    Nat → Nat → List (List Char) → List (Entry × Nat) → Prop
  | nil {number taken : Nat} : Layout unit number taken [] []
  | within {number taken : Nat} {raw : List Char} {rest : List (List Char)}
      {entries : List (Entry × Nat)} :
      Layout unit (number + 1) taken rest entries →
      Layout unit number (taken + 1) (raw :: rest) entries
  | blank {number : Nat} {raw : List Char} {rest : List (List Char)}
      {entries : List (Entry × Nat)} :
      Text.allBlank raw = true → Layout unit (number + 1) 0 rest entries →
      Layout unit number 0 (raw :: rest) entries
  | entry {number depth taken : Nat} {raw : List Char} {rest : List (List Char)}
      {kind : NodeKind} {entries : List (Entry × Nat)} :
      Text.allBlank raw = false → Indent.Measures unit (Line.lead raw) depth →
      taken ≤ rest.length → kind.Owns unit depth raw (rest.take taken) →
      Layout unit (number + 1) taken rest entries →
      Layout unit number 0 (raw :: rest) ((⟨number, depth, kind⟩, taken) :: entries)

/-- Reading adds an entry for each line that no entry above has taken. -/
theorem readLines_ok {unit : Option Indent} {o : Outline} {number taken : Nat}
    {lines : List (List Char)} {forest : Forest} (wide : Indent.Wide unit)
    (nested : o.WellNested) (read : readLines unit o number taken lines = .ok forest) :
    ∃ last entries, Indent.Keeps unit last ∧ Indent.Wide last ∧
      Layout last number taken lines entries ∧
      forest.entries = o.entries ++ entries.map Prod.fst ∧ ∀ n ∈ forest, n.WellNested := by
  induction lines generalizing unit o number taken with
  | nil =>
      rw [readLines] at read
      cases read
      refine ⟨unit, [], .same unit, wide, .nil, ?_, Outline.wellNested_finish nested⟩
      rw [Outline.entries_finish, List.map_nil, List.append_nil]
  | cons raw rest ih =>
      cases taken with
      | succ taken =>
          rw [readLines] at read
          obtain ⟨last, entries, keeps, wideLast, layout, same⟩ := ih wide nested read
          exact ⟨last, entries, keeps, wideLast, .within layout, same⟩
      | zero =>
          rw [readLines] at read
          split at read
          · next blank =>
              obtain ⟨last, entries, keeps, wideLast, layout, same⟩ := ih wide nested read
              exact ⟨last, entries, keeps, wideLast, .blank blank layout, same⟩
          · next text =>
              obtain ⟨⟨line, settled⟩, first, read⟩ := bind_ok read
              obtain ⟨next, descends, read⟩ := bind_ok read
              obtain ⟨header, headed, read⟩ := bind_ok read
              obtain ⟨content, keepsFirst, wideFirst, measured⟩ := Line.read_ok wide first
              obtain ⟨keepsHeader, wideHeader, bound, owns⟩ :=
                Header.read_ok wideFirst content measured headed
              obtain ⟨same, length, nestedNext, allowed⟩ := Outline.descend_ok nested descends
              obtain ⟨last, entries, keeps, wideLast, layout, forest, wellNested⟩ :=
                ih wideHeader (nestedNext.push allowed header.kind number) read
              refine ⟨last, (⟨number, line.depth, header.kind⟩, header.taken) :: entries,
                (keepsFirst.trans keepsHeader).trans keeps, wideLast, ?_, ?_, wellNested⟩
              · exact .entry (by simpa using text)
                  (measured.keeps (keepsHeader.trans keeps) wideLast) bound
                  (owns.keeps keeps wideLast) layout
              · rw [forest, Outline.entries_push, same, length, List.map_cons,
                  List.append_assoc]
                rfl

namespace Layout

variable {unit : Option Indent} {number taken : Nat} {lines : List (List Char)}
  {entries : List (Entry × Nat)}

theorem first_le (layout : Layout unit number taken lines entries) :
    ∀ p ∈ entries, number + taken ≤ p.1.line := by
  induction layout with
  | nil => exact nofun
  | within _ ih =>
      intro p member
      have later := ih p member
      omega
  | blank _ _ ih =>
      intro p member
      have later := ih p member
      omega
  | entry _ _ _ _ _ ih =>
      intro p member
      rcases List.mem_cons.mp member with rfl | later
      · exact Nat.le_refl _
      · have after := ih p later
        omega

/-- No two entries take the same line. -/
theorem pairwise (layout : Layout unit number taken lines entries) :
    entries.Pairwise fun p q => p.1.line + p.2 < q.1.line := by
  induction layout with
  | nil => exact .nil
  | within _ ih => exact ih
  | blank _ _ ih => exact ih
  | entry _ _ _ _ layout ih =>
      refine .cons (fun q later => ?_) ih
      have after := layout.first_le q later
      simp only
      omega

/-- Each entry stands on a line at its depth, and the lines that it takes are its own. -/
theorem placed (layout : Layout unit number taken lines entries) :
    ∀ p ∈ entries, ∃ i raw below, p.1.line = number + i ∧ lines.drop i = raw :: below ∧
      Text.allBlank raw = false ∧ Indent.Measures unit (Line.lead raw) p.1.depth ∧
      p.2 ≤ below.length ∧ p.1.kind.Owns unit p.1.depth raw (below.take p.2) := by
  induction layout with
  | nil => exact nofun
  | within _ ih =>
      intro p member
      obtain ⟨i, raw, below, line, here, rest⟩ := ih p member
      exact ⟨i + 1, raw, below, by omega, here, rest⟩
  | blank _ _ ih =>
      intro p member
      obtain ⟨i, raw, below, line, here, rest⟩ := ih p member
      exact ⟨i + 1, raw, below, by omega, here, rest⟩
  | @entry _ _ _ raw below _ _ text measured bound owns _ ih =>
      intro p member
      rcases List.mem_cons.mp member with rfl | later
      · exact ⟨0, raw, below, rfl, rfl, text, measured, bound, owns⟩
      · obtain ⟨i, raw, below, line, here, rest⟩ := ih p later
        exact ⟨i + 1, raw, below, by omega, here, rest⟩

/-- Each line that is not blank belongs to an entry. -/
theorem covered (layout : Layout unit number taken lines entries) {i : Nat} {raw : List Char}
    (here : lines[i]? = some raw) (text : Text.allBlank raw = false) (below : taken ≤ i) :
    ∃ p ∈ entries, p.1.line ≤ number + i ∧ number + i ≤ p.1.line + p.2 := by
  induction layout generalizing i with
  | nil => cases here
  | within _ ih =>
      cases i with
      | zero => omega
      | succ i =>
          obtain ⟨p, member, first, last⟩ := ih here (by omega)
          exact ⟨p, member, by omega, by omega⟩
  | blank blank _ ih =>
      cases i with
      | zero =>
          cases here
          rw [blank] at text
          cases text
      | succ i =>
          obtain ⟨p, member, first, last⟩ := ih here (by omega)
          exact ⟨p, member, by omega, by omega⟩
  | @entry number _ taken _ _ _ _ _ _ _ _ _ ih =>
      cases i with
      | zero => exact ⟨_, List.mem_cons_self .., Nat.le_refl _, by simp only; omega⟩
      | succ i =>
          by_cases later : taken ≤ i
          · obtain ⟨p, member, first, last⟩ := ih here later
            exact ⟨p, List.mem_cons_of_mem _ member, by omega, by omega⟩
          · exact ⟨_, List.mem_cons_self .., by simp only; omega, by simp only; omega⟩

end Layout

theorem exists_extent {entries : List (Entry × Nat)}
    (apart : entries.Pairwise fun p q => p.1.line + p.2 < q.1.line) :
    ∃ extent : Nat → Nat, ∀ p ∈ entries, extent p.1.line = p.2 := by
  induction apart with
  | nil => exact ⟨fun _ => 0, nofun⟩
  | @cons p entries first _ ih =>
      obtain ⟨extent, takes⟩ := ih
      refine ⟨fun line => if line = p.1.line then p.2 else extent line, fun q member => ?_⟩
      rcases List.mem_cons.mp member with rfl | later
      · exact if_pos rfl
      · have after := first q later
        have other : q.1.line ≠ p.1.line := by omega
        exact (if_neg other).trans (takes q later)

end Document

/-- A forest that has a place for each line of a document that is not blank: `unit` is what the
document is indented by, and `extent` the number of lines that the node of a line takes below it. -/
structure Forest.Structured (unit : Option Indent) (extent : Nat → Nat)
    (lines : List (List Char)) (forest : Forest) : Prop where
  increasing : (forest.preorder.map fun p => p.2.line).Pairwise (· < ·)
  /-- A node stands on a line at its depth, and the lines it takes are its own. -/
  placed : ∀ p ∈ forest.preorder, ∃ i raw below, p.2.line = i + 1 ∧
    lines.drop i = raw :: below ∧ Text.allBlank raw = false ∧
    Indent.Measures unit (Line.lead raw) p.1 ∧ extent p.2.line ≤ below.length ∧
    p.2.kind.Owns unit p.1 raw (below.take (extent p.2.line))
  nested : ∀ p ∈ forest.preorder, p.2.children ≠ [] → p.2.kind.MayNest
  /-- A line that is not blank belongs to one node, whose line it is or which takes it. -/
  shared : ∀ i raw, lines[i]? = some raw → Text.allBlank raw = false →
    ∃! p, p ∈ forest.preorder ∧ p.2.line ≤ i + 1 ∧ i + 1 ≤ p.2.line + extent p.2.line

namespace Document

theorem eq_of_apart {extent : Nat → Nat} {nodes : List (Nat × Node)}
    (apart : nodes.Pairwise fun p q => p.2.line + extent p.2.line < q.2.line)
    {p q : Nat × Node} (first : p ∈ nodes) (second : q ∈ nodes) {line : Nat}
    (within : p.2.line ≤ line ∧ line ≤ p.2.line + extent p.2.line)
    (inside : q.2.line ≤ line ∧ line ≤ q.2.line + extent q.2.line) : p = q := by
  induction apart with
  | nil => cases first
  | cons before _ ih =>
      rcases List.mem_cons.mp first with rfl | later
      · rcases List.mem_cons.mp second with rfl | later
        · rfl
        · have after := before q later
          omega
      · rcases List.mem_cons.mp second with rfl | also
        · have after := before p later
          omega
        · exact ih later also

theorem structured_of_layout {unit : Option Indent} {lines : List (List Char)}
    {entries : List (Entry × Nat)} {forest : Forest} (layout : Layout unit 1 0 lines entries)
    (same : forest.entries = entries.map Prod.fst) (nested : ∀ n ∈ forest, n.WellNested) :
    ∃ extent, forest.Structured unit extent lines := by
  obtain ⟨extent, takes⟩ := exists_extent layout.pairwise
  have entry : ∀ p ∈ forest.preorder, ∃ q ∈ entries, q.1 = Entry.of p := by
    intro p member
    have listed : Entry.of p ∈ forest.entries := List.mem_map_of_mem member
    rw [same] at listed
    exact List.mem_map.mp listed
  have node : ∀ q ∈ entries, ∃ p ∈ forest.preorder, Entry.of p = q.1 := by
    intro q member
    have listed : q.1 ∈ entries.map Prod.fst := List.mem_map_of_mem member
    rw [← same] at listed
    exact List.mem_map.mp listed
  have apart : forest.preorder.Pairwise fun p q => p.2.line + extent p.2.line < q.2.line := by
    have listed : (forest.preorder.map Entry.of).Pairwise fun e f =>
        e.line + extent e.line < f.line := by
      have shown : forest.preorder.map Entry.of = entries.map Prod.fst := same
      rw [shown, List.pairwise_map]
      refine layout.pairwise.imp_of_mem fun {p q} member _ before => ?_
      rw [takes p member]
      exact before
    exact List.pairwise_map.mp listed
  refine ⟨extent, ?_, fun p member => ?_, fun p member => ?_, fun i raw here text => ?_⟩
  · refine List.pairwise_map.mpr (apart.imp fun before => ?_)
    omega
  · obtain ⟨q, among, equal⟩ := entry p member
    obtain ⟨i, raw, below, line, found, text, measured, bound, owns⟩ := layout.placed q among
    have count := takes q among
    rw [equal] at line measured owns count
    rw [← count] at bound owns
    exact ⟨i, raw, below, line.trans (Nat.add_comm 1 i), found, text, measured, bound, owns⟩
  · obtain ⟨n, among, inside⟩ := Forest.mem_preorderAt member
    exact (nested n among).mayNest 0 p inside
  · obtain ⟨q, among, first, last⟩ := layout.covered here text (Nat.zero_le i)
    obtain ⟨p, member, equal⟩ := node q among
    have count := takes q among
    rw [← equal] at first last count
    simp only [Entry.of] at first last count
    refine ⟨p, ⟨member, by omega, by omega⟩, fun p' ⟨member', first', last'⟩ => ?_⟩
    exact eq_of_apart apart member' member ⟨first', last'⟩ ⟨by omega, by omega⟩

/-- A document that can be read gives a forest in which its lines have their places. -/
theorem read_structured {unit : IndentUnit} {source : String} {forest : Forest}
    (read : Document.read unit source = .ok forest) :
    ∃ (indent : Option Indent) (extent : Nat → Nat), Indent.Keeps (Indent.preset unit) indent ∧
      forest.Structured indent extent (Text.physicalLines source.toList) := by
  have empty : Outline.empty.WellNested := ⟨nofun, nofun, nofun⟩
  obtain ⟨indent, entries, keeps, -, layout, same, nested⟩ :=
    readLines_ok (Indent.wide_preset unit) empty read
  obtain ⟨extent, structured⟩ := structured_of_layout layout same nested
  exact ⟨indent, extent, keeps, structured⟩

def takingPage : String :=
  "%p\x7ba: 1,\n  b: 2\x7d\n  %b x\n\n-# note\n    more\n:plain\n  raw\n    deep\n/ end"

theorem takingPage_structured :
    ∃ forest indent extent, Document.read .auto takingPage = .ok forest ∧
      forest.Structured indent extent (Text.physicalLines takingPage.toList) := by
  have reads : (Document.read .auto takingPage).isOk = true := by decide +kernel
  cases read : Document.read .auto takingPage with
  | error e =>
      rw [read] at reads
      cases reads
  | ok forest =>
      obtain ⟨indent, extent, -, structured⟩ := read_structured read
      exact ⟨forest, indent, extent, rfl, structured⟩

end Document

end Haml
