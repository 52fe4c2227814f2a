import Haml.Document
import Haml.Proofs.Outcome
import Mathlib.Data.List.Basic
import Mathlib.Data.List.TakeWhile
/-! Regions: the indentation of a line, and the lines below it that belong to its node. -/

namespace Haml

namespace Indent

/-- What may become of the unit of a document: one that is settled stays. -/
def Keeps (unit later : Option Indent) : Prop := ∀ u, unit = some u → later = some u

theorem Keeps.same (unit : Option Indent) : Keeps unit unit := fun _ settled => settled

theorem Keeps.trans {unit later last : Option Indent} (first : Keeps unit later)
    (second : Keeps later last) : Keeps unit last :=
  fun u settled => second u (first u settled)

/-- Whether leading white space stands for a depth: as many tabs, or as many units of spaces. -/
def Measures : Option Indent → List Char → Nat → Prop
  | none, lead, depth => lead = [] ∧ depth = 0
  | some tab, lead, depth => lead = List.replicate depth '\t'
  | some (spaces width), lead, depth => 0 < width ∧ lead = List.replicate (depth * width) ' '

def Wide (unit : Option Indent) : Prop := ∀ width, unit = some (spaces width) → 0 < width

theorem wide_none : Wide none := by
  intro width chosen
  cases chosen

theorem wide_tab : Wide (some tab) := by
  intro width chosen
  cases chosen

theorem wide_preset (unit : IndentUnit) : Wide (preset unit) := by
  intro width chosen
  cases unit with
  | auto => cases chosen
  | tab => cases chosen
  | spaces n =>
      simp only [preset] at chosen
      split at chosen
      · cases chosen
      · cases chosen
        omega

theorem measures_nil {unit : Option Indent} (wide : Wide unit) : Measures unit [] 0 := by
  match unit, wide with
  | none, _ => exact ⟨rfl, rfl⟩
  | some tab, _ => exact rfl
  | some (spaces width), wide =>
      refine ⟨wide width rfl, ?_⟩
      rw [Nat.zero_mul]
      rfl

theorem Measures.keeps {unit later : Option Indent} {lead : List Char} {depth : Nat}
    (measured : Measures unit lead depth) (keeps : Keeps unit later) (wide : Wide later) :
    Measures later lead depth := by
  cases unit with
  | none =>
      obtain ⟨rfl, rfl⟩ := measured
      exact measures_nil wide
  | some u =>
      rw [keeps u rfl]
      exact measured

theorem eq_replicate_tab {lead : List Char} (mixed : lead.length - lead.countP (· == '\t') = 0) :
    lead = List.replicate (lead.countP (· == '\t')) '\t' := by
  have bound := List.countP_le_length (p := (· == '\t')) (l := lead)
  have all : lead.countP (· == '\t') = lead.length := by omega
  rw [all]
  refine List.eq_replicate_iff.mpr ⟨rfl, fun c member => ?_⟩
  exact eq_of_beq (List.countP_eq_length.mp all c member)

theorem eq_replicate_space {lead : List Char} (indent : ∀ c ∈ lead, Text.isIndent c = true)
    (untabbed : lead.countP (· == '\t') = 0) : lead = List.replicate lead.length ' ' := by
  refine List.eq_replicate_iff.mpr ⟨rfl, fun c member => ?_⟩
  have noTab := List.countP_eq_zero.mp untabbed c member
  have either := indent c member
  simp only [Text.isIndent, Bool.or_eq_true, beq_iff_eq] at either
  rcases either with space | tab
  · exact space
  · exact absurd (beq_iff_eq.mpr tab) noTab

section Measure

variable {unit settled : Option Indent} {lead : List Char} {line depth : Nat}

theorem measure_ok_of_tabs (tabs : 0 < lead.countP (· == '\t'))
    (measured : measure unit lead line = .ok (depth, settled)) :
    Keeps unit settled ∧ Wide settled ∧ Measures settled lead depth := by
  have nonempty : lead.isEmpty = false := by
    cases lead with
    | nil => cases tabs
    | cons c cs => rfl
  simp only [measure, nonempty, tabs, decide_true, Bool.true_and, decide_eq_true_eq, if_true,
    Bool.false_eq_true, if_false] at measured
  split at measured
  · cases measured
  · next mixed =>
      have all : lead = List.replicate (lead.countP (· == '\t')) '\t' :=
        eq_replicate_tab (Nat.eq_zero_of_not_pos mixed)
      split at measured
      · cases measured
        exact ⟨nofun, nofun, all⟩
      · next equal => cases equal
      · cases measured
        exact ⟨fun u chosen => chosen, nofun, all⟩
      · next equal => cases equal
      · cases measured

theorem measures_spaces {width : Nat} (spaces : lead = List.replicate lead.length ' ')
    (indented : 0 < lead.length) (divides : lead.length % width = 0) :
    0 < width ∧ lead = List.replicate (lead.length / width * width) ' ' := by
  constructor
  · rcases Nat.eq_zero_or_pos width with zero | positive
    · rw [zero, Nat.mod_zero] at divides
      omega
    · exact positive
  · rw [Nat.div_mul_cancel (Nat.dvd_of_mod_eq_zero divides)]
    exact spaces

theorem measure_ok_of_spaces (wide : Wide unit) (spaces : lead = List.replicate lead.length ' ')
    (positive : 0 < lead.length) (untabbed : lead.countP (· == '\t') = 0)
    (measured : measure unit lead line = .ok (depth, settled)) :
    Keeps unit settled ∧ Wide settled ∧ Measures settled lead depth := by
  have nonempty : lead.isEmpty = false := by
    cases lead with
    | nil => cases positive
    | cons c cs => rfl
  simp only [measure, nonempty, untabbed, Nat.lt_irrefl, decide_false, Bool.false_and,
    Bool.false_eq_true, if_false, Nat.sub_zero] at measured
  split at measured
  · next equal => cases equal
  · next equal =>
      cases measured
      cases equal
      refine ⟨nofun, fun width chosen => ?_, positive, ?_⟩
      · cases chosen
        exact positive
      · rw [Nat.one_mul]
        exact spaces
  · next equal => cases equal
  · next equal =>
      cases equal
      split at measured
      · next divides =>
          cases measured
          exact ⟨.same _, wide, measures_spaces spaces positive divides⟩
      · cases measured
  · cases measured

/-- Measuring settles the unit at most, and gives the depth that the settled unit says. -/
theorem measure_ok (wide : Wide unit) (indent : ∀ c ∈ lead, Text.isIndent c = true)
    (measured : measure unit lead line = .ok (depth, settled)) :
    Keeps unit settled ∧ Wide settled ∧ Measures settled lead depth := by
  rcases Nat.eq_zero_or_pos (lead.countP (· == '\t')) with untabbed | tabs
  · rcases Nat.eq_zero_or_pos lead.length with empty | positive
    · rw [List.length_eq_zero_iff] at empty
      subst empty
      cases measured
      exact ⟨.same unit, wide, measures_nil wide⟩
    · exact measure_ok_of_spaces wide (eq_replicate_space indent untabbed) positive
        untabbed measured
  · exact measure_ok_of_tabs tabs measured

end Measure

end Indent

namespace Line

def lead (raw : List Char) : List Char := raw.takeWhile Text.isIndent

def content (raw : List Char) : List Char := Text.trimEnd (raw.dropWhile Text.isIndent)

theorem isIndent_of_mem_lead {raw : List Char} (c : Char) (member : c ∈ lead raw) :
    Text.isIndent c = true :=
  List.mem_takeWhile_imp member

theorem read_ok {unit settled : Option Indent} {number : Nat} {raw : List Char} {line : Line}
    (wide : Indent.Wide unit) (read : Line.read unit number raw = .ok (line, settled)) :
    line.text = content raw ∧ Indent.Keeps unit settled ∧ Indent.Wide settled ∧
      Indent.Measures settled (lead raw) line.depth := by
  obtain ⟨⟨depth, later⟩, measure, rest⟩ := bind_ok read
  cases rest
  exact ⟨rfl, Indent.measure_ok wide isIndent_of_mem_lead measure⟩

section Blocks

def stripLead (lead raw : List Char) : List Char :=
  if Text.allBlank raw then [] else raw.drop lead.length

/-- Lines that are blank or start with the indentation of a block one level below `depth`, and the
text they make up. -/
def RawBlock (unit : Option Indent) (depth : Nat) (region : List (List Char)) (body : String) :
    Prop :=
  ∃ lead, (region ≠ [] → Indent.Measures unit lead (depth + 1)) ∧
    (∀ raw ∈ region, Text.allBlank raw = true ∨ lead <+: raw) ∧
    body = String.ofList (List.intercalate ['\n'] (dropBlankEnd (region.map (stripLead lead))))

def Strips (lead : List Char) (below lines : List (List Char)) : Prop :=
  lines.length ≤ below.length ∧ lines = (below.take lines.length).map (stripLead lead) ∧
    ∀ raw ∈ below.take lines.length, Text.allBlank raw = true ∨ lead <+: raw

theorem Strips.cons {lead raw : List Char} {below lines : List (List Char)}
    (strips : Strips lead below lines) (belongs : Text.allBlank raw = true ∨ lead <+: raw) :
    Strips lead (raw :: below) (stripLead lead raw :: lines) := by
  obtain ⟨bound, same, starts⟩ := strips
  refine ⟨Nat.succ_le_succ bound, ?_, ?_⟩
  · rw [List.length_cons, List.take_succ_cons, List.map_cons, ← same]
  · rw [List.length_cons, List.take_succ_cons]
    exact List.forall_mem_cons.mpr ⟨belongs, starts⟩

theorem strips_blockLines (lead : List Char) (below : List (List Char)) :
    Strips lead below (blockLines lead below) := by
  induction below with
  | nil => exact ⟨Nat.le_refl 0, rfl, nofun⟩
  | cons raw below ih =>
      rw [blockLines]
      split
      · next blank =>
          have stripped := ih.cons (.inl blank)
          rw [stripLead, if_pos blank] at stripped
          exact stripped
      · next text =>
          split
          · next rest found =>
              have whole := List.isPrefixOf?_eq_some_iff_append_eq.mp found
              have stripped := ih.cons (.inr ⟨rest, whole⟩)
              rw [stripLead, if_neg text, ← whole, List.drop_left, whole] at stripped
              exact stripped
          · exact ⟨Nat.zero_le _, rfl, nofun⟩

theorem rawBlock_nil (unit : Option Indent) (depth : Nat) : RawBlock unit depth [] "" :=
  ⟨[], fun filled => absurd rfl filled, nofun, rfl⟩

/-- A block is empty unless the first line that is not blank is one level deeper than the header;
then it takes the lines that start as that one does. -/
theorem takeBlock_cases {unit : Option Indent} {depth next : Nat} {below : List (List Char)}
    {block : Block} (taken : takeBlock unit depth next below = .ok block) :
    (block = ⟨[], 0, unit⟩ ∧ ∀ first others, below.dropWhile Text.allBlank = first :: others →
      lead first = [] ∨ ∃ line measured settled,
        Indent.measure unit (lead first) line = .ok (measured, settled) ∧ measured ≤ depth) ∨
    ∃ first others line settled, below.dropWhile Text.allBlank = first :: others ∧
      Indent.measure unit (lead first) line = .ok (depth + 1, settled) ∧
      block = ⟨dropBlankEnd (blockLines (lead first) below), (blockLines (lead first) below).length,
        settled⟩ := by
  unfold takeBlock at taken
  cases found : below.dropWhile Text.allBlank with
  | nil =>
      rw [found] at taken
      cases taken
      exact .inl ⟨rfl, nofun⟩
  | cons first others =>
      simp only [found] at taken
      split at taken
      · next flush =>
          cases taken
          refine .inl ⟨rfl, ?_⟩
          rintro _ _ ⟨⟩
          exact .inl (List.isEmpty_iff.mp flush)
      · obtain ⟨⟨measured, settled⟩, measure, rest⟩ := bind_ok taken
        simp only at rest
        split at rest
        · next shallow =>
            cases rest
            refine .inl ⟨rfl, ?_⟩
            rintro _ _ ⟨⟩
            exact .inr ⟨_, measured, settled, measure, shallow⟩
        · split at rest
          · cases rest
          · cases rest
            have level : measured = depth + 1 := by omega
            subst level
            exact .inr ⟨first, others, _, settled, rfl, measure, rfl⟩

/-- A block takes lines that belong to it, one level deeper than its header. -/
theorem takeBlock_ok {unit : Option Indent} {depth next : Nat} {below : List (List Char)}
    {block : Block} (wide : Indent.Wide unit)
    (taken : takeBlock unit depth next below = .ok block) :
    Indent.Keeps unit block.unit ∧ Indent.Wide block.unit ∧ block.taken ≤ below.length ∧
      RawBlock block.unit depth (below.take block.taken)
        (String.ofList (List.intercalate ['\n'] block.lines)) := by
  rcases takeBlock_cases taken with ⟨rfl, -⟩ | ⟨first, others, line, settled, -, measure, rfl⟩
  · exact ⟨.same unit, wide, Nat.zero_le _, rawBlock_nil unit depth⟩
  · obtain ⟨keeps, wideSettled, measures⟩ := Indent.measure_ok wide isIndent_of_mem_lead measure
    obtain ⟨bound, lines, starts⟩ := strips_blockLines (lead first) below
    refine ⟨keeps, wideSettled, bound, lead first, fun _ => measures, starts, ?_⟩
    exact congrArg (fun ls => String.ofList (List.intercalate ['\n'] (dropBlankEnd ls))) lines

end Blocks

section Skips

def Skipped (header raw : List Char) : Prop :=
  raw.dropWhile Text.isIndent = [] ∨ (lead header).length < (lead raw).length

theorem length_lead_of_measures {unit : Option Indent} {raw : List Char} {depth : Nat}
    (measured : Indent.Measures unit (lead raw) depth) :
    (lead raw).length = Indent.width unit depth := by
  match unit, measured with
  | none, measured => exact congrArg List.length measured.1
  | some .tab, measured =>
      rw [measured]
      exact List.length_replicate
  | some (.spaces width), measured =>
      rw [measured.2]
      exact List.length_replicate

theorem skipped_of_skipCount {unit : Option Indent} {depth : Nat} {header : List Char}
    (measured : Indent.Measures unit (lead header) depth) (below : List (List Char)) :
    skipCount unit depth below ≤ below.length ∧
      ∀ raw ∈ below.take (skipCount unit depth below), Skipped header raw := by
  unfold skipCount
  have starts := List.takeWhile_prefix (l := below)
    fun raw => !endsSkip (Indent.width unit depth) raw
  refine ⟨starts.length_le, fun raw member => ?_⟩
  rw [← List.prefix_iff_eq_take.mp starts] at member
  have stays := List.mem_takeWhile_imp member
  simp only [endsSkip, Bool.not_and, Bool.not_not, Bool.or_eq_true, List.isEmpty_iff,
    Bool.not_eq_true', decide_eq_false_iff_not, Nat.not_le] at stays
  rcases stays with blank | deeper
  · exact .inl blank
  · refine .inr ?_
    rw [length_lead_of_measures measured]
    exact deeper

end Skips

end Line

namespace Attribute.Token

theorem suffix_of_bracketed {cs inner rest : List Char} (cut : bracketed cs = some (inner, rest)) :
    rest <:+ cs := by
  have whole := texts_scan cs
  unfold bracketed at cut
  split at cut
  · next t ts scanned =>
      split at cut
      · obtain ⟨⟨before, after⟩, closed, equal⟩ := Option.map_eq_some_iff.mp cut
        cases equal
        obtain ⟨u, -, rfl⟩ := closing_append closed
        refine ⟨texts (t :: before ++ [u]), ?_⟩
        rw [← whole, scanned]
        simp only [texts, List.flatMap_append, List.flatMap_cons, List.flatMap_nil,
          List.append_assoc, List.append_nil, List.cons_append]
      · cases cut
  · cases cut

end Attribute.Token

namespace Tag

def joined (text : List Char) (region : List (List Char)) : List Char :=
  text ++ region.flatMap fun raw => ' ' :: Text.trim raw

/-- Whether a hash is left open at the end of a text. -/
def Unclosed (text : List Char) : Prop :=
  ∃ before rest, text = before ++ '{' :: rest ∧ Attribute.Token.bracketed ('{' :: rest) = none

structure Reading.From (text : List Char) (below : List (List Char)) (r : Reading) : Prop where
  suffix : r.rest <:+ r.text
  taken : ∃ n, n ≤ below.length ∧ r.below = below.drop n ∧ r.text = joined text (below.take n) ∧
    ∀ j < n, Unclosed (joined text (below.take j))

theorem joined_take_succ (text : List Char) {next : List Char} {below others : List (List Char)}
    {n : Nat} (here : next :: others = below.drop n) :
    n + 1 ≤ below.length ∧ others = below.drop (n + 1) ∧
      joined text (below.take (n + 1)) = joined text (below.take n) ++ ' ' :: Text.trim next := by
  have found : below[n]? = some next := by
    rw [← List.head?_drop, ← here]
    rfl
  have bound : n < below.length := (List.getElem?_eq_some_iff.mp found).1
  refine ⟨bound, ?_, ?_⟩
  · rw [← List.tail_drop, ← here]
    rfl
  · simp only [joined, List.take_add_one, found, Option.toList_some, List.flatMap_append,
      List.flatMap_singleton, List.append_assoc]

theorem from_takeBracketed {text start rest inner : List Char} {below others : List (List Char)}
    {r : Reading} (cut : takeBracketed text rest others = some (inner, r))
    (brace : rest.head? = some '{') (reading : (Reading.mk text rest others).From start below) :
    r.From start below := by
  induction others generalizing text rest with
  | nil =>
      obtain ⟨⟨i, after⟩, closed, equal⟩ := Option.map_eq_some_iff.mp cut
      cases equal
      exact ⟨(Attribute.Token.suffix_of_bracketed closed).trans reading.suffix, reading.taken⟩
  | cons next others ih =>
      rw [takeBracketed] at cut
      split at cut
      · next i after closed =>
          cases cut
          exact ⟨(Attribute.Token.suffix_of_bracketed closed).trans reading.suffix, reading.taken⟩
      · next unclosed =>
          obtain ⟨before, split⟩ := reading.suffix
          obtain ⟨n, -, here, same, each⟩ := reading.taken
          obtain ⟨bound, left, joins⟩ := joined_take_succ start here
          refine ih cut ?_ ⟨⟨before, ?_⟩, n + 1, bound, left, ?_, fun j lt => ?_⟩
          · rw [List.head?_append, brace]
            rfl
          · rw [← List.append_assoc, split]
          · rw [joins, ← same]
          · rcases Nat.lt_succ_iff_lt_or_eq.mp lt with earlier | rfl
            · exact each j earlier
            · rw [← same]
              obtain ⟨cs, rfl⟩ := List.head?_eq_some_iff.mp brace
              exact ⟨before, cs, split.symm, unclosed⟩

theorem from_takeLists {line : Nat} {start : List Char} {below : List (List Char)}
    {r last : Reading} {entries : List AttributeEntry}
    (read : takeLists line r = .ok (entries, last)) (reading : r.From start below) :
    last.From start below := by
  fun_induction takeLists line r generalizing entries last with
  | case1 r brace unbalanced => cases read
  | case2 r brace inner after cut ih =>
      obtain ⟨first, -, rest⟩ := bind_ok read
      obtain ⟨⟨more, final⟩, others, done⟩ := bind_ok rest
      cases done
      exact ih others (from_takeBracketed cut brace reading)
  | case3 r paren unbalanced => cases read
  | case4 r paren inner after cut ih =>
      obtain ⟨first, -, rest⟩ := bind_ok read
      obtain ⟨⟨more, final⟩, others, done⟩ := bind_ok rest
      cases done
      obtain ⟨⟨i, tail⟩, closed, equal⟩ := Option.map_eq_some_iff.mp cut
      cases equal
      exact ih others
        ⟨(Attribute.Token.suffix_of_bracketed closed).trans reading.suffix, reading.taken⟩
  | case5 r =>
      cases read
      exact reading

theorem suffix_of_takeName {line : Nat} {text rest : List Char} {name : String}
    (read : takeName line text = .ok (name, rest)) : rest <:+ text := by
  unfold takeName at read
  split at read
  · simp only at read
    split at read
    · cases read
    · cases read
      exact (List.dropWhile_suffix _).trans (List.suffix_cons _ _)
  · cases read
    exact List.suffix_refl _

theorem suffix_of_takeShorthands {line : Nat} {text rest : List Char}
    {entries : List AttributeEntry} (read : takeShorthands line text = .ok (entries, rest)) :
    rest <:+ text := by
  fun_induction takeShorthands line text generalizing entries rest with
  | case1 =>
      cases read
      exact List.suffix_refl _
  | case2 c cs absent =>
      cases read
      exact List.suffix_refl _
  | case3 c cs name value empty => cases read
  | case4 c cs name found value filled =>
      rename_i ih
      obtain ⟨⟨more, final⟩, others, done⟩ := bind_ok read
      cases done
      exact ((ih others).trans (List.dropWhile_suffix _)).trans (List.suffix_cons _ _)

theorem read_ok {line : Nat} {text : List Char} {below rest : List (List Char)} {t : Tag}
    (read : Tag.read line text below = .ok (t, rest)) :
    ∃ n, n ≤ below.length ∧ rest = below.drop n ∧
      ∀ j < n, Unclosed (joined text (below.take j)) := by
  obtain ⟨⟨name, unnamed⟩, first, read⟩ := bind_ok read
  obtain ⟨⟨shorthands, unread⟩, second, read⟩ := bind_ok read
  obtain ⟨⟨entries, r⟩, third, read⟩ := bind_ok read
  have start : (Reading.mk text unread below).From text below :=
    ⟨(suffix_of_takeShorthands second).trans (suffix_of_takeName first), 0, Nat.zero_le _, rfl,
      (List.append_nil text).symm, nofun⟩
  obtain ⟨-, n, bound, left, -, each⟩ := from_takeLists third start
  simp only at read
  split at read
  · split at read
    · cases read
    · cases read
      exact ⟨n, bound, left, each⟩
  · cases read

end Tag

end Haml
