import Haml.Proofs.Region
import Mathlib.Data.List.DropRight
/-! Printed lines: the indentation that a unit gives a depth, and what is read below a header if the
lines there are indented so. -/

namespace Haml

section Text

namespace Text

theorem trimEnd_of_getLast? {cs : List Char} (seen : ∀ c ∈ cs.getLast?, isBlank c = false) :
    trimEnd cs = cs := by
  refine List.rdropWhile_eq_self_iff.mpr fun filled => ?_
  rw [seen _ (List.getLast?_eq_some_getLast filled)]
  exact Bool.false_ne_true

theorem physicalLines_intercalate {lines : List (List Char)} (filled : lines ≠ [])
    (whole : ∀ raw ∈ lines, '\n' ∉ raw ∧ raw.getLast? ≠ some '\r') :
    physicalLines (List.intercalate ['\n'] lines) = lines := by
  have parts : (List.intercalate ['\n'] lines).splitOn '\n' = lines :=
    List.splitOn_intercalate '\n' (fun raw member => (whole raw member).1) filled
  rw [physicalLines, parts]
  calc lines.map dropReturn
      = lines.map id := by
        refine List.map_congr_left fun raw member => ?_
        unfold dropReturn
        split
        · next last => exact absurd last (whole raw member).2
        · rfl
    _ = lines := List.map_id lines

end Text

end Text

namespace Indent

def lead (u : Indent) (depth : Nat) : List Char :=
  match u with
  | tab => List.replicate depth '\t'
  | spaces width => List.replicate (depth * width) ' '

def option : Indent → IndentUnit
  | tab => .tab
  | spaces width => .spaces width

variable {u : Indent} {unit : Option Indent} {depth : Nat}

theorem preset_option (wide : Wide (some u)) : preset u.option = some u := by
  cases u with
  | tab => rfl
  | spaces width =>
      have positive := wide width rfl
      rw [option, preset, if_neg (Nat.ne_of_gt positive)]

theorem isIndent_of_mem (u : Indent) (depth : Nat) (c : Char) (member : c ∈ u.lead depth) :
    Text.isIndent c = true := by
  cases u with
  | tab =>
      obtain rfl := List.eq_of_mem_replicate member
      rfl
  | spaces width =>
      obtain rfl := List.eq_of_mem_replicate member
      rfl

theorem length_lead (u : Indent) (depth : Nat) :
    (u.lead depth).length = width (some u) depth := by
  cases u with
  | tab => exact List.length_replicate
  | spaces width => exact List.length_replicate

theorem width_mono {d : Nat} (le : d ≤ depth) : width (some u) d ≤ width (some u) depth := by
  cases u with
  | tab => exact le
  | spaces n => exact Nat.mul_le_mul_right n le

theorem width_lt_succ (wide : Wide (some u)) (depth : Nat) :
    width (some u) depth < width (some u) (depth + 1) := by
  cases u with
  | tab => exact Nat.lt_succ_self depth
  | spaces n => exact Nat.mul_lt_mul_of_pos_right (Nat.lt_succ_self depth) (wide n rfl)

theorem lead_zero : u.lead 0 = [] := by
  cases u with
  | tab => rfl
  | spaces n =>
      rw [lead, Nat.zero_mul]
      rfl

def Fits (u : Indent) (unit : Option Indent) (depth : Nat) : Prop :=
  unit = some u ∨ unit = none ∧ depth ≤ 1

/-- Whether a unit is settled as far as a line at a depth settles it. -/
def Settled (u : Indent) (unit : Option Indent) (depth : Nat) : Prop :=
  unit = some u ∨ unit = none ∧ depth = 0

theorem Settled.fits (settled : Settled u unit depth) : Fits u unit (depth + 1) := by
  rcases settled with same | ⟨absent, rfl⟩
  · exact .inl same
  · exact .inr ⟨absent, Nat.le_refl 1⟩

theorem Settled.measured (settled : Settled u unit depth) :
    width unit depth = width (some u) depth := by
  rcases settled with rfl | ⟨rfl, rfl⟩
  · rfl
  · rw [← length_lead, lead_zero]
    rfl

theorem Fits.pred (fits : Fits u unit (depth + 1)) : Fits u unit depth := by
  rcases fits with same | ⟨absent, shallow⟩
  · exact .inl same
  · exact .inr ⟨absent, by omega⟩

theorem measure_lead_tab (fits : Fits tab unit (depth + 1)) (line : Nat) :
    measure unit (lead tab (depth + 1)) line = .ok (depth + 1, some tab) := by
  have tabs : (List.replicate (depth + 1) '\t').countP (· == '\t') = depth + 1 :=
    List.countP_replicate.trans (if_pos rfl)
  rcases fits with rfl | ⟨rfl, -⟩
  · simp [measure, lead, tabs]
  · simp [measure, lead, tabs]

theorem measure_lead_spaces {width : Nat} (positive : 0 < width)
    (fits : Fits (spaces width) unit (depth + 1)) (line : Nat) :
    measure unit (lead (spaces width) (depth + 1)) line = .ok (depth + 1, some (spaces width)) := by
  have tabs : (List.replicate ((depth + 1) * width) ' ').countP (· == '\t') = 0 :=
    List.countP_replicate.trans (if_neg (by decide))
  have nonzero : (depth + 1) * width ≠ 0 := Nat.mul_ne_zero (Nat.succ_ne_zero depth) (by omega)
  have nonempty : (List.replicate ((depth + 1) * width) ' ').isEmpty = false := by
    rw [List.isEmpty_replicate]
    exact decide_eq_false nonzero
  rcases fits with rfl | ⟨rfl, shallow⟩
  · simp [measure, lead, tabs, nonempty, Nat.mul_div_cancel _ positive]
  · obtain rfl : depth = 0 := by omega
    rw [Nat.zero_add, Nat.one_mul] at tabs
    simp [measure, lead, tabs, Nat.ne_of_gt positive]

/-- The indentation of a printed line says its depth. -/
theorem measure_lead (wide : Wide (some u)) (fits : Fits u unit depth) (line : Nat) :
    ∃ settled, measure unit (u.lead depth) line = .ok (depth, settled) ∧
      Settled u settled depth := by
  cases depth with
  | zero =>
      refine ⟨unit, ?_, ?_⟩
      · rw [lead_zero]
        rfl
      · rcases fits with same | ⟨absent, -⟩
        · exact .inl same
        · exact .inr ⟨absent, rfl⟩
  | succ depth =>
      cases u with
      | tab => exact ⟨some tab, measure_lead_tab fits line, .inl rfl⟩
      | spaces width => exact ⟨_, measure_lead_spaces (wide width rfl) fits line, .inl rfl⟩

end Indent

namespace Line

/-- Whether a line may stand for a header: it holds no line end, and no white space around it. -/
structure IsText (text : List Char) : Prop where
  whole : '\n' ∉ text
  first : ∃ c, text.head? = some c ∧ Text.isBlank c = false
  last : ∀ c ∈ text.getLast?, Text.isBlank c = false

variable {u : Indent} {unit : Option Indent} {depth number : Nat} {text : List Char}

theorem isBlank_of_isIndent {c : Char} (h : Text.isIndent c = true) : Text.isBlank c = true := by
  simp only [Text.isIndent, Bool.or_eq_true, beq_iff_eq] at h
  rcases h with rfl | rfl
  · rfl
  · rfl

def Starts (text : List Char) : Prop := ∃ c, text.head? = some c ∧ Text.isIndent c = false

theorem IsText.starts (isText : IsText text) : Starts text := by
  obtain ⟨c, head, visible⟩ := isText.first
  refine ⟨c, head, ?_⟩
  by_contra indent
  rw [isBlank_of_isIndent (by simpa using indent)] at visible
  cases visible

theorem takeWhile_lead (starts : Starts text) :
    (u.lead depth ++ text).takeWhile Text.isIndent = u.lead depth := by
  obtain ⟨c, head, visible⟩ := starts
  obtain ⟨cs, rfl⟩ := List.head?_eq_some_iff.mp head
  rw [List.takeWhile_append_of_pos (u.isIndent_of_mem _), List.takeWhile_cons_of_neg,
    List.append_nil]
  rw [visible]
  exact Bool.false_ne_true

theorem dropWhile_lead (starts : Starts text) :
    (u.lead depth ++ text).dropWhile Text.isIndent = text := by
  obtain ⟨c, head, visible⟩ := starts
  obtain ⟨cs, rfl⟩ := List.head?_eq_some_iff.mp head
  rw [List.dropWhile_append_of_pos (u.isIndent_of_mem _), List.dropWhile_cons_of_neg]
  rw [visible]
  exact Bool.false_ne_true

theorem IsText.trimEnd (isText : IsText text) : Text.trimEnd text = text :=
  Text.trimEnd_of_getLast? isText.last

theorem IsText.allBlank_lead (isText : IsText text) :
    Text.allBlank (u.lead depth ++ text) = false := by
  obtain ⟨c, head, visible⟩ := isText.first
  refine List.all_eq_false.mpr ⟨c, ?_, ?_⟩
  · exact List.mem_append_right _ (List.mem_of_head? head)
  · rw [visible]
    exact Bool.false_ne_true

theorem allBlank_lead_of_ne_nil (blank : Text.allBlank text = true → text = [])
    (filled : text ≠ []) : Text.allBlank (u.lead depth ++ text) = false := by
  have visible : text.all Text.isBlank = false :=
    Bool.eq_false_iff.mpr fun all => filled (blank all)
  rw [Text.allBlank, List.all_append, visible, Bool.and_false]

theorem Starts.ne_nil (starts : Starts text) : text ≠ [] := by
  rintro rfl
  obtain ⟨c, head, -⟩ := starts
  cases head

theorem read_lead (wide : Indent.Wide (some u)) (fits : Indent.Fits u unit depth)
    (isText : IsText text) :
    ∃ settled, Line.read unit number (u.lead depth ++ text) =
      .ok (⟨number, depth, text⟩, settled) ∧ Indent.Settled u settled depth := by
  obtain ⟨settled, measure, settles⟩ := Indent.measure_lead wide fits number
  refine ⟨settled, ?_, settles⟩
  rw [Line.read, takeWhile_lead isText.starts, measure, dropWhile_lead isText.starts]
  simp only [bind, Except.bind, isText.trimEnd]
  rfl

/-- Printed lines none of which is nested deeper than `depth` up to the next header, but blank lines
of white space that stands before headers. -/
inductive Shallow (u : Indent) (depth : Nat) : List (List Char) → Prop
  | nil : Shallow u depth []
  | blank {raw : List Char} {below : List (List Char)} :
      (∀ c ∈ raw, Text.isIndent c = true) → Shallow u depth below →
      Shallow u depth (raw :: below)
  | header {d : Nat} {text : List Char} {below : List (List Char)} :
      d ≤ depth → IsText text → Shallow u depth ((u.lead d ++ text) :: below)

theorem Shallow.mono {lines : List (List Char)} {deeper : Nat} (shallow : Shallow u depth lines)
    (le : depth ≤ deeper) : Shallow u deeper lines := by
  induction shallow with
  | nil => exact .nil
  | blank indent _ ih => exact .blank indent ih
  | header shallow isText => exact .header (Nat.le_trans shallow le) isText

theorem Shallow.append {blanks lines : List (List Char)}
    (indent : ∀ raw ∈ blanks, ∀ c ∈ raw, Text.isIndent c = true)
    (shallow : Shallow u depth lines) : Shallow u depth (blanks ++ lines) := by
  induction blanks with
  | nil => exact shallow
  | cons raw blanks ih =>
      obtain ⟨here, rest⟩ := List.forall_mem_cons.mp indent
      exact .blank here (ih rest)

theorem allBlank_of_isIndent {raw : List Char} (indent : ∀ c ∈ raw, Text.isIndent c = true) :
    Text.allBlank raw = true :=
  List.all_eq_true.mpr fun c member => isBlank_of_isIndent (indent c member)

section Below

variable {below : List (List Char)}

/-- A silent comment skips no more than blank lines before the next header. -/
theorem Shallow.skipCount (shallow : Shallow u depth below)
    (settled : Indent.Settled u unit depth) :
    ∀ raw ∈ below.take (skipCount unit depth below), Text.allBlank raw = true := by
  unfold Line.skipCount
  rw [settled.measured]
  induction shallow with
  | nil => simp
  | @blank raw below indent _ ih =>
      have stays : endsSkip (Indent.width (some u) depth) raw = false := by
        rw [endsSkip, List.dropWhile_eq_nil_iff.mpr indent]
        rfl
      rw [List.takeWhile_cons_of_pos (by rw [stays]; rfl), List.length_cons, List.take_succ_cons]
      exact List.forall_mem_cons.mpr ⟨allBlank_of_isIndent indent, ih⟩
  | @header d text below le isText =>
      have ends : endsSkip (Indent.width (some u) depth) (u.lead d ++ text) = true := by
        have starts := isText.starts
        rw [endsSkip, takeWhile_lead starts, dropWhile_lead starts, u.length_lead,
          List.isEmpty_eq_false_iff.mpr starts.ne_nil, Bool.not_false, Bool.true_and]
        exact decide_eq_true (Indent.width_mono le)
      rw [List.takeWhile_cons_of_neg (by rw [ends]; exact Bool.false_ne_true)]
      simp

theorem Shallow.dropWhile_allBlank (shallow : Shallow u depth below) :
    below.dropWhile Text.allBlank = [] ∨ ∃ d text more, d ≤ depth ∧ IsText text ∧
      below.dropWhile Text.allBlank = (u.lead d ++ text) :: more := by
  induction shallow with
  | nil => exact .inl rfl
  | blank indent _ ih =>
      rw [List.dropWhile_cons_of_pos (allBlank_of_isIndent indent)]
      exact ih
  | header le isText =>
      refine .inr ⟨_, _, _, le, isText, List.dropWhile_cons_of_neg ?_⟩
      rw [isText.allBlank_lead]
      exact Bool.false_ne_true

theorem Shallow.takeBlock (wide : Indent.Wide (some u)) (shallow : Shallow u depth below)
    (settled : Indent.Settled u unit depth) (next : Nat) :
    takeBlock unit depth next below = .ok ⟨[], 0, unit⟩ := by
  unfold Line.takeBlock
  rcases shallow.dropWhile_allBlank with absent | ⟨d, text, more, le, isText, found⟩
  · rw [absent]
  · rw [found]
    simp only [takeWhile_lead isText.starts]
    split
    · rfl
    · next filled =>
        have fits : Indent.Fits u unit d := by
          rcases settled with same | ⟨absent, rfl⟩
          · exact .inl same
          · exact .inr ⟨absent, Nat.le_succ_of_le le⟩
        obtain ⟨later, measured, -⟩ := Indent.measure_lead wide fits
          (next + (below.takeWhile Text.allBlank).length)
        rw [measured]
        simp only [bind, Except.bind]
        rw [if_pos le]
        rfl

theorem Shallow.blockLines (wide : Indent.Wide (some u)) (shallow : Shallow u depth below) :
    ∃ k, blockLines (u.lead (depth + 1)) below = List.replicate k [] ∧
      ∀ raw ∈ below.take k, Text.allBlank raw = true := by
  induction shallow with
  | nil => exact ⟨0, rfl, by simp⟩
  | @blank raw below indent _ ih =>
      obtain ⟨k, same, blank⟩ := ih
      have here := allBlank_of_isIndent indent
      refine ⟨k + 1, ?_, ?_⟩
      · rw [Line.blockLines, if_pos here, same]
        rfl
      · rw [List.take_succ_cons]
        exact List.forall_mem_cons.mpr ⟨here, blank⟩
  | @header d text below le isText =>
      refine ⟨0, ?_, by simp⟩
      have other : (u.lead (depth + 1)).isPrefixOf? (u.lead d ++ text) = none := by
        cases found : (u.lead (depth + 1)).isPrefixOf? (u.lead d ++ text) with
        | none => rfl
        | some rest =>
            have whole := List.isPrefixOf?_eq_some_iff_append_eq.mp found
            have leads : (u.lead d).length =
                (u.lead (depth + 1)).length + (rest.takeWhile Text.isIndent).length := by
              rw [← takeWhile_lead isText.starts, ← whole,
                List.takeWhile_append_of_pos (u.isIndent_of_mem _), List.length_append]
            rw [u.length_lead, u.length_lead] at leads
            have shorter := Indent.width_mono (u := u) le
            have longer := Indent.width_lt_succ wide depth
            omega
      rw [Line.blockLines, isText.allBlank_lead, if_neg Bool.false_ne_true, other]
      rfl

/-- The lines of a raw block as they can be given back: blank lines are empty, and neither the first
nor the last is; the first is not indented. -/
structure IsBody (body : List (List Char)) : Prop where
  whole : ∀ raw ∈ body, '\n' ∉ raw ∧ raw.getLast? ≠ some '\r'
  blank : ∀ raw ∈ body, Text.allBlank raw = true → raw = []
  first : ∀ raw ∈ body.head?, Starts raw
  last : ∀ raw ∈ body.getLast?, raw ≠ []

def inBlock (u : Indent) (depth : Nat) (raw : List Char) : List Char :=
  if raw.isEmpty then [] else u.lead depth ++ raw

theorem blockLines_inBlock (u : Indent) (depth : Nat) {body : List (List Char)}
    (below : List (List Char)) (blank : ∀ raw ∈ body, Text.allBlank raw = true → raw = []) :
    blockLines (u.lead depth) (body.map (inBlock u depth) ++ below) =
      body ++ blockLines (u.lead depth) below := by
  induction body with
  | nil => rfl
  | cons raw body ih =>
      obtain ⟨here, others⟩ := List.forall_mem_cons.mp blank
      rw [List.map_cons, List.cons_append, blockLines, ih others]
      cases raw with
      | nil => rfl
      | cons c cs =>
          have visible : Text.allBlank (u.lead depth ++ c :: cs) = false :=
            allBlank_lead_of_ne_nil here (List.cons_ne_nil c cs)
          have starts : (u.lead depth).isPrefixOf? (u.lead depth ++ c :: cs) = some (c :: cs) :=
            List.isPrefixOf?_eq_some_iff_append_eq.mpr rfl
          rw [inBlock, List.isEmpty_cons, if_neg Bool.false_ne_true, visible,
            if_neg Bool.false_ne_true, starts]
          rfl

theorem dropBlankEnd_append {body : List (List Char)} (last : ∀ raw ∈ body.getLast?, raw ≠ [])
    (k : Nat) : dropBlankEnd (body ++ List.replicate k []) = body := by
  have blanks : ∀ raw ∈ List.replicate k ([] : List Char), List.isEmpty raw = true := by
    intro raw member
    obtain rfl := List.eq_of_mem_replicate member
    rfl
  rw [dropBlankEnd, List.reverse_append, List.reverse_replicate,
    List.dropWhile_append_of_pos blanks]
  cases reversed : body.reverse with
  | nil => rw [List.dropWhile_nil, ← reversed, List.reverse_reverse]
  | cons raw raws =>
      have final : body.getLast? = some raw := by
        rw [← List.head?_reverse, reversed]
        rfl
      have filled := last raw final
      rw [List.dropWhile_cons_of_neg, ← reversed, List.reverse_reverse]
      rw [List.isEmpty_iff]
      exact filled

/-- A filter takes the printed lines of its block, and blank lines after them at most. -/
theorem IsBody.takeBlock {body : List (List Char)} (isBody : IsBody body)
    (wide : Indent.Wide (some u)) (shallow : Shallow u depth below)
    (settled : Indent.Settled u unit depth) (next : Nat) :
    ∃ k later, Line.takeBlock unit depth next (body.map (inBlock u (depth + 1)) ++ below) =
        .ok ⟨body, body.length + k, later⟩ ∧ Indent.Settled u later depth ∧
      ∀ raw ∈ below.take k, Text.allBlank raw = true := by
  cases body with
  | nil => exact ⟨0, unit, shallow.takeBlock wide settled next, settled, nofun⟩
  | cons first others =>
      obtain ⟨k, same, blank⟩ := shallow.blockLines wide
      have starts := isBody.first first rfl
      have filled := starts.ne_nil
      have visible : Text.allBlank (u.lead (depth + 1) ++ first) = false :=
        allBlank_lead_of_ne_nil (isBody.blank first (List.mem_cons_self ..)) filled
      have printed : inBlock u (depth + 1) first = u.lead (depth + 1) ++ first := by
        rw [inBlock, List.isEmpty_eq_false_iff.mpr filled, if_neg Bool.false_ne_true]
      have lines := blockLines_inBlock u (depth + 1) below isBody.blank
      have indented : (u.lead (depth + 1)).isEmpty = false := by
        have longer := Indent.width_lt_succ wide depth
        have length := u.length_lead (depth + 1)
        rw [List.isEmpty_eq_false_iff, ← List.length_pos_iff]
        omega
      have found : ((first :: others).map (inBlock u (depth + 1)) ++ below).dropWhile
          Text.allBlank =
          (u.lead (depth + 1) ++ first) :: (others.map (inBlock u (depth + 1)) ++ below) := by
        rw [List.map_cons, List.cons_append, printed, List.dropWhile_cons_of_neg]
        rw [visible]
        exact Bool.false_ne_true
      refine ⟨k, some u, ?_, .inl rfl, blank⟩
      unfold Line.takeBlock
      rw [found]
      simp only [takeWhile_lead starts, indented, Bool.false_eq_true, if_false]
      obtain ⟨later, measured, settles⟩ := Indent.measure_lead wide settled.fits
        (next + (((first :: others).map (inBlock u (depth + 1)) ++ below).takeWhile
          Text.allBlank).length)
      -- The block may be the first indented thing there is: its first line then settles the unit.
      obtain rfl : later = some u := settles.resolve_right fun bad => Nat.succ_ne_zero depth bad.2
      rw [measured]
      simp only [bind, Except.bind]
      rw [if_neg (by omega), if_neg (by omega), lines, same, dropBlankEnd_append isBody.last,
        List.length_append, List.length_replicate]
      rfl

end Below

end Line

end Haml
