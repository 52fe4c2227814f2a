import Haml.Proofs.Visible
import Mathlib.Data.List.TakeWhile
/-! Indented output: what is written one level deeper, below other lines, is the same output with two
more spaces before each of its lines. -/

namespace Haml

namespace Text

def indent (cs : List Char) : List Char :=
  List.intercalate ['\n'] ((cs.splitOn '\n').map fun raw =>
    if raw.isEmpty then [] else ' ' :: ' ' :: raw)

/-- The same for what follows in a text: `fresh` if nothing stands in its line yet. -/
def indentFrom : Bool → List Char → List Char
  | _, [] => []
  | fresh, c :: cs =>
      if c = '\n' then '\n' :: indentFrom true cs
      else (if fresh then [' ', ' '] else []) ++ c :: indentFrom false cs

def freshAfter : Bool → List Char → Bool
  | fresh, [] => fresh
  | _, c :: cs => freshAfter (c == '\n') cs

theorem indentFrom_eq (fresh : Bool) (cs : List Char) {raw : List Char} {lines : List (List Char)}
    (split : cs.splitOn '\n' = raw :: lines) :
    indentFrom fresh cs =
      List.intercalate ['\n'] ((if fresh && !raw.isEmpty then ' ' :: ' ' :: raw else raw) ::
        lines.map fun raw => if raw.isEmpty then [] else ' ' :: ' ' :: raw) := by
  induction cs generalizing fresh raw lines with
  | nil =>
      cases split
      cases fresh <;> rfl
  | cons c cs ih =>
      by_cases newline : c = '\n'
      · subst newline
        rw [List.splitOn_cons_eq_if_modifyHead, if_pos (beq_self_eq_true _)] at split
        cases split
        cases rest : cs.splitOn '\n' with
        | nil => exact absurd rest (List.splitOn_ne_nil _ cs)
        | cons next lines =>
            rw [indentFrom, if_pos rfl, ih true rest]
            cases next <;> cases fresh <;> rfl
      · rw [List.splitOn_cons_eq_if_modifyHead, if_neg (by simpa using newline)] at split
        cases rest : cs.splitOn '\n' with
        | nil => exact absurd rest (List.splitOn_ne_nil _ cs)
        | cons next others =>
            rw [rest] at split
            cases split
            rw [indentFrom, if_neg newline, ih false rest]
            cases fresh <;> cases lines <;> rfl

theorem indent_eq (cs : List Char) : indent cs = indentFrom true cs := by
  cases split : cs.splitOn '\n' with
  | nil => exact absurd split (List.splitOn_ne_nil _ cs)
  | cons raw lines =>
      rw [indent, split, indentFrom_eq true cs split, List.map_cons]
      cases raw <;> rfl

theorem indentFrom_append (fresh : Bool) (cs ds : List Char) :
    indentFrom fresh (cs ++ ds) = indentFrom fresh cs ++ indentFrom (freshAfter fresh cs) ds := by
  induction cs generalizing fresh with
  | nil => rfl
  | cons c cs ih =>
      rw [List.cons_append, indentFrom, indentFrom, freshAfter, ih, ih]
      by_cases newline : c = '\n'
      · subst newline
        rfl
      · rw [if_neg newline, if_neg newline, beq_eq_false_iff_ne.mpr newline, List.append_assoc]
        rfl

theorem freshAfter_append (fresh : Bool) (cs ds : List Char) :
    freshAfter fresh (cs ++ ds) = freshAfter (freshAfter fresh cs) ds := by
  induction cs generalizing fresh with
  | nil => rfl
  | cons c cs ih => rw [List.cons_append, freshAfter, freshAfter, ih]

theorem indentFrom_of_whole {cs : List Char} (whole : '\n' ∉ cs) (fresh : Bool) :
    indentFrom fresh cs = if fresh && !cs.isEmpty then ' ' :: ' ' :: cs else cs := by
  induction cs generalizing fresh with
  | nil => cases fresh <;> rfl
  | cons c cs ih =>
      obtain ⟨other, rest⟩ := not_or.mp (mt List.mem_cons.mpr whole)
      rw [indentFrom, if_neg (Ne.symm other), ih rest]
      cases fresh <;> rfl

theorem indentFrom_line {raw : List Char} (whole : '\n' ∉ raw) (fresh : Bool) :
    indentFrom fresh (raw ++ ['\n']) =
      (if fresh && !raw.isEmpty then ' ' :: ' ' :: raw else raw) ++ ['\n'] := by
  rw [indentFrom_append, indentFrom_of_whole whole]
  rfl

theorem freshAfter_line (fresh : Bool) (raw : List Char) :
    freshAfter fresh (raw ++ ['\n']) = true := by
  rw [freshAfter_append]
  rfl

theorem of_mem_splitOnP {p : Char → Bool} {cs raw : List Char} (member : raw ∈ cs.splitOnP p) :
    ∀ c ∈ raw, p c = false := by
  induction cs generalizing raw with
  | nil =>
      obtain rfl := List.mem_singleton.mp member
      exact nofun
  | cons c cs ih =>
      rw [List.splitOnP_cons_eq_if_modifyHead] at member
      split at member
      · rcases List.mem_cons.mp member with rfl | later
        · exact nofun
        · exact ih later
      · next other =>
          cases rest : cs.splitOnP p with
          | nil => exact absurd rest (List.splitOnP_ne_nil p cs)
          | cons next lines =>
              rw [rest] at member ih
              rcases List.mem_cons.mp member with rfl | later
              · exact List.forall_mem_cons.mpr ⟨Bool.eq_false_iff.mpr other, ih (List.mem_cons_self ..)⟩
              · exact ih (List.mem_cons_of_mem next later)

theorem not_mem_of_mem_splitOn {cs raw : List Char} (member : raw ∈ cs.splitOn '\n') :
    '\n' ∉ raw := by
  intro inside
  cases of_mem_splitOnP member '\n' inside

theorem exists_of_visible {cs : List Char} (seen : visible cs ≠ []) :
    ∃ front c back, cs = front ++ c :: back ∧ isBlank c = false ∧ (∀ d ∈ back, isBlank d = true) ∧
      trimEnd cs = front ++ [c] := by
  have parts := List.takeWhile_append_dropWhile (p := isBlank) (l := cs.reverse)
  have last := List.head?_dropWhile_not isBlank cs.reverse
  cases kept : cs.reverse.dropWhile isBlank with
  | nil =>
      have blank := List.dropWhile_eq_nil_iff.mp kept
      refine absurd (List.filter_eq_nil_iff.mpr fun c member => ?_) seen
      simp [blank c (List.mem_reverse.mpr member)]
  | cons c front =>
      rw [kept] at parts last
      refine ⟨front.reverse, c, (cs.reverse.takeWhile isBlank).reverse, ?_, last,
        fun d member => ?_, ?_⟩
      · have whole := congrArg List.reverse parts
        rw [List.reverse_reverse, List.reverse_append, List.reverse_cons, List.append_assoc] at whole
        exact whole.symm
      · exact List.mem_takeWhile_imp (List.mem_reverse.mp member)
      · rw [trimEnd_eq_rdropWhile, List.rdropWhile, kept, List.reverse_cons]

theorem trimEnd_of_blank (front : List Char) {back : List Char} {c : Char} (last : isBlank c = false)
    (blank : ∀ d ∈ back, isBlank d = true) : trimEnd (front ++ c :: back) = front ++ [c] := by
  have reversed : ∀ d ∈ back.reverse, isBlank d = true := fun d member =>
    blank d (List.mem_reverse.mp member)
  rw [trimEnd_eq_rdropWhile, List.rdropWhile, List.reverse_append, List.reverse_cons,
    List.append_assoc, List.dropWhile_append_of_pos reversed, List.singleton_append,
    List.dropWhile_cons_of_neg (by simp [last]), List.reverse_cons, List.reverse_reverse]

theorem isBlank_of_mem_indentFrom (fresh : Bool) {cs : List Char}
    (blank : ∀ c ∈ cs, isBlank c = true) : ∀ c ∈ indentFrom fresh cs, isBlank c = true := by
  induction cs generalizing fresh with
  | nil => exact nofun
  | cons c cs ih =>
      obtain ⟨here, rest⟩ := List.forall_mem_cons.mp blank
      rw [indentFrom]
      split
      · exact List.forall_mem_cons.mpr ⟨rfl, ih true rest⟩
      · refine List.forall_mem_append.mpr ⟨?_, List.forall_mem_cons.mpr ⟨here, ih false rest⟩⟩
        cases fresh with
        | false => exact nofun
        | true => exact List.all_eq_true.mp rfl

/-- A text that holds something visible is trimmed as it is when it is indented below another. -/
theorem trimEnd_indentFrom (above : List Char) {cs : List Char} (seen : visible cs ≠ []) :
    trimEnd (above ++ indentFrom true cs) = above ++ indentFrom true (trimEnd cs) ∧
      freshAfter true (trimEnd cs) = false := by
  obtain ⟨front, c, back, rfl, last, blank, trimmed⟩ := exists_of_visible seen
  have newline : c ≠ '\n' := by
    rintro rfl
    cases last
  rw [trimmed]
  constructor
  · rw [← List.singleton_append, ← List.append_assoc front, indentFrom_append,
      indentFrom_append true front, freshAfter_append, indentFrom, if_neg newline]
    have after : freshAfter (freshAfter true front) [c] = false := beq_eq_false_iff_ne.mpr newline
    have rest := trimEnd_of_blank (above ++ indentFrom true front ++
      if freshAfter true front then [' ', ' '] else []) last (isBlank_of_mem_indentFrom false blank)
    rw [after]
    simpa only [indentFrom, List.append_assoc, List.cons_append, List.nil_append] using rest
  · rw [freshAfter_append]
    exact beq_eq_false_iff_ne.mpr newline

end Text

open Text

namespace Buffer

/-- Whether an output is another one, indented below lines that stand above it. -/
structure Indented (above : List Char) (b b' : Buffer) : Prop where
  text : b'.text = above ++ indentFrom true b.text
  glued : b'.glued = b.glued
  fresh : freshAfter true b.text = !b.glued

variable {above : List Char} {b b' : Buffer}

def lineStart (b : Buffer) (depth : Nat) (raw : List Char) : List Char :=
  (if b.glued || raw.isEmpty then [] else List.replicate (2 * depth) ' ') ++ raw

theorem line_eq_lineStart (b : Buffer) (depth : Nat) (raw : List Char) :
    b.line depth raw = ⟨b.text ++ (b.lineStart depth raw ++ ['\n']), false⟩ := by
  simp only [Buffer.line, lineStart, List.append_assoc]

theorem lineStart_whole {raw : List Char} (whole : '\n' ∉ raw) (b : Buffer) (depth : Nat) :
    '\n' ∉ b.lineStart depth raw := by
  intro member
  rcases List.mem_append.mp member with spaces | inside
  · split at spaces
    · cases spaces
    · cases List.eq_of_mem_replicate spaces
  · exact whole inside

/-- Below other lines, a line that does not join one starts two spaces further in. -/
theorem lineStart_succ {b b' : Buffer} (glued : b'.glued = b.glued) (depth : Nat) (raw : List Char) :
    b'.lineStart (depth + 1) raw =
      if !b.glued && !(b.lineStart depth raw).isEmpty then
        ' ' :: ' ' :: b.lineStart depth raw
      else b.lineStart depth raw := by
  have deeper : List.replicate (2 * (depth + 1)) ' ' =
      ' ' :: ' ' :: List.replicate (2 * depth) ' ' := by
    rw [Nat.mul_succ, List.replicate_succ, List.replicate_succ]
  rw [lineStart, lineStart, glued, deeper]
  cases raw with
  | nil => cases b.glued <;> rfl
  | cons c cs => cases b.glued <;> simp

theorem Indented.line (indented : Indented above b b') (depth : Nat) {raw : List Char}
    (whole : '\n' ∉ raw) : Indented above (b.line depth raw) (b'.line (depth + 1) raw) := by
  obtain ⟨text, glued, fresh⟩ := indented
  rw [line_eq_lineStart, line_eq_lineStart]
  refine ⟨?_, rfl, ?_⟩
  · rw [indentFrom_append, fresh, indentFrom_line (lineStart_whole whole b depth),
      ← lineStart_succ glued, text, List.append_assoc]
  · rw [freshAfter_append, freshAfter_line]
    rfl

theorem Indented.foldl_line (depth : Nat) {lines : List (List Char)}
    (whole : ∀ raw ∈ lines, '\n' ∉ raw) (indented : Indented above b b') :
    Indented above (lines.foldl (fun b raw => b.line depth raw) b)
      (lines.foldl (fun b raw => b.line (depth + 1) raw) b') := by
  induction lines generalizing b b' with
  | nil => exact indented
  | cons raw lines ih =>
      obtain ⟨here, rest⟩ := List.forall_mem_cons.mp whole
      exact ih rest (indented.line depth here)

theorem Indented.lines (indented : Indented above b b') (depth : Nat) (raw : List Char) :
    Indented above (b.lines depth raw) (b'.lines (depth + 1) raw) := by
  unfold Buffer.lines
  generalize (dropSuffix? ['\n'] raw).getD raw = body
  dsimp only
  split
  · exact indented
  · exact indented.foldl_line depth fun piece member => not_mem_of_mem_splitOn member

theorem Indented.glue (indented : Indented above b b') (seen : b.Seen) :
    Indented above b.glue b'.glue := by
  obtain ⟨trimmed, fresh⟩ := trimEnd_indentFrom above seen
  refine ⟨?_, rfl, fresh⟩
  rw [Buffer.glue, indented.text]
  exact trimmed

end Buffer

end Haml
