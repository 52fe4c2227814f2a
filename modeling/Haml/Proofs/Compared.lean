import Haml.Proofs.Printing.Lines
import Haml.Text.Mismatch
import Mathlib.Order.Bounds.Basic
/-! Compared texts: the lines that a text is written in, and the first line in which two texts
differ. -/

namespace Haml.Text

/-- Whether a text is these lines one after another. Each is ended by a line feed, with a carriage
return before it or without; the end may be missing after a last line that is not empty. -/
inductive IsLines : List Char → List (List Char) → Prop
  | empty : IsLines [] []
  | unended {l : List Char} (filled : l ≠ []) (whole : '\n' ∉ l) : IsLines l [l]
  | fed {l rest : List Char} {ls : List (List Char)} (whole : '\n' ∉ l)
      (bare : l.getLast? ≠ some '\r') (below : IsLines rest ls) :
      IsLines (l ++ '\n' :: rest) (l :: ls)
  | returned {l rest : List Char} {ls : List (List Char)} (whole : '\n' ∉ l)
      (below : IsLines rest ls) : IsLines (l ++ '\r' :: '\n' :: rest) (l :: ls)

variable {l rest cs left right : List Char} {ls rs : List (List Char)}

theorem dropReturn_eq_self (bare : l.getLast? ≠ some '\r') : dropReturn l = l := by
  unfold dropReturn
  split
  · next last => exact absurd last bare
  · rfl

theorem dropReturn_concat (l : List Char) : dropReturn (l ++ ['\r']) = l := by
  rw [dropReturn, List.getLast?_concat]
  exact List.dropLast_concat

theorem lines_unended (filled : l ≠ []) (whole : '\n' ∉ l) : lines l = [l] := by
  rw [lines, List.splitOn_eq_singleton whole]
  simp [filled]

theorem lines_append (whole : '\n' ∉ l) (rest : List Char) :
    lines (l ++ '\n' :: rest) = dropReturn l :: lines rest := by
  rw [lines, List.splitOn_append_cons_self_of_not_mem whole, lines]
  cases pieces : rest.splitOn '\n' with
  | nil => exact absurd pieces (List.splitOn_ne_nil _ _)
  | cons piece pieces => rfl

theorem IsLines.lines_eq (written : IsLines cs ls) : lines cs = ls := by
  induction written with
  | empty => rfl
  | unended filled whole => exact lines_unended filled whole
  | fed whole bare below ih => rw [lines_append whole, dropReturn_eq_self bare, ih]
  | returned whole below ih =>
      rename_i l rest ls
      have split : l ++ '\r' :: '\n' :: rest = (l ++ ['\r']) ++ '\n' :: rest := by simp
      have still : '\n' ∉ l ++ ['\r'] := by simp [whole]
      rw [split, lines_append still, dropReturn_concat, ih]

theorem isLines_lines (cs : List Char) : IsLines cs (lines cs) := by
  -- The induction is on the length of the text, whose first line ends at its first line feed.
  induction count : cs.length using Nat.strongRecOn generalizing cs with
  | ind n ih =>
      by_cases fed : '\n' ∈ cs
      · obtain ⟨l, rest, rfl, whole⟩ := List.eq_append_cons_of_mem fed
        have below := ih rest.length (by simp at count; omega) rest rfl
        rw [lines_append whole]
        by_cases last : l.getLast? = some '\r'
        · obtain ⟨l, rfl⟩ := List.getLast?_eq_some_iff.mp last
          rw [dropReturn_concat, List.append_assoc]
          exact .returned (mt (List.mem_append_left ['\r']) whole) below
        · rw [dropReturn_eq_self last]
          exact .fed whole last below
      · cases cs with
        | nil => exact .empty
        | cons c cs =>
            rw [lines_unended (List.cons_ne_nil c cs) fed]
            exact .unended (List.cons_ne_nil c cs) fed

theorem isLines_iff : IsLines cs ls ↔ lines cs = ls := by
  constructor
  · exact IsLines.lines_eq
  · rintro rfl
    exact isLines_lines cs

namespace Mismatch

variable {d : Mismatch}

theorem ofLines_eq_none (line : Nat) : ofLines line ls rs = none ↔ ls = rs := by
  fun_induction ofLines line ls rs with
  | case1 => simp
  | case2 line l ls rs ih => simp [ih]
  | case3 line l ls r rs apart => simp [apart]
  | case4 => simp
  | case5 => simp

def differing (ls rs : List (List Char)) : Set Nat := {i | ls[i]? ≠ rs[i]?}

theorem isLeast_differing_succ {i : Nat} (least : IsLeast (differing ls rs) i) :
    IsLeast (differing (l :: ls) (l :: rs)) (i + 1) := by
  refine ⟨least.1, fun j apart => ?_⟩
  cases j with
  | zero => exact absurd rfl apart
  | succ j => exact Nat.succ_le_succ (least.2 apart)

theorem isLeast_differing_zero (apart : ls.head? ≠ rs.head?) : IsLeast (differing ls rs) 0 := by
  rw [List.head?_eq_getElem?, List.head?_eq_getElem?] at apart
  exact ⟨apart, fun j _ => Nat.zero_le j⟩

theorem take_eq_take {i : Nat} (least : IsLeast (differing ls rs) i) : ls.take i = rs.take i := by
  refine List.ext_getElem? fun j => ?_
  rw [List.getElem?_take, List.getElem?_take]
  split
  · next before =>
      by_contra apart
      exact absurd (least.2 apart) (Nat.not_le.mpr before)
  · rfl

theorem isLeast_number {i : Nat} (least : IsLeast (differing ls rs) i) :
    IsLeast {k | 1 ≤ k ∧ ls[k - 1]? ≠ rs[k - 1]?} (1 + i) := by
  refine ⟨⟨Nat.le_add_right 1 i, ?_⟩, fun k other => ?_⟩
  · rw [Nat.add_sub_cancel_left]
    exact least.1
  · have before := least.2 other.2
    have counted := other.1
    omega

/-- A mismatch is the first place at which the lines differ, and shows the lines there. -/
theorem exists_least_of_ofLines {line : Nat} (found : ofLines line ls rs = some d) :
    ∃ i, IsLeast (differing ls rs) i ∧ d = ⟨line + i, ls[i]?, rs[i]?⟩ := by
  fun_induction ofLines line ls rs with
  | case1 line => cases found
  | case2 line l ls rs ih =>
      obtain ⟨i, least, rfl⟩ := ih found
      refine ⟨i + 1, isLeast_differing_succ least, ?_⟩
      rw [List.getElem?_cons_succ, List.getElem?_cons_succ, Nat.add_assoc, Nat.add_comm 1 i]
  | case3 line l ls r rs apart =>
      cases found
      exact ⟨0, isLeast_differing_zero (by simpa using apart), rfl⟩
  | case4 line r rs =>
      cases found
      exact ⟨0, isLeast_differing_zero (by simp), rfl⟩
  | case5 line l ls =>
      cases found
      exact ⟨0, isLeast_differing_zero (by simp), rfl⟩

theorem ofLines_swap (line : Nat) (ls rs : List (List Char)) :
    ofLines line rs ls = (ofLines line ls rs).map swap := by
  fun_induction ofLines line ls rs with
  | case1 => rfl
  | case2 line l ls rs ih => rw [ofLines, if_pos rfl, ih]
  | case3 line l ls r rs apart => rw [ofLines, if_neg (Ne.symm apart)]; rfl
  | case4 => rfl
  | case5 => rfl

end Mismatch

/-- Texts are compared by their lines, whatever ends these. There is no mismatch exactly if the
lines are the same. Otherwise the mismatch is the first number at which the texts have not the same
line, or only one of them has a line; it shows the line of each there, or that there is none. Texts
that change places have the mismatch with its two lines changed. -/
theorem mismatch?_first (left right : List Char) :
    (∀ ls, IsLines left ls ↔ lines left = ls) ∧ (∀ rs, IsLines right rs ↔ lines right = rs) ∧
    (mismatch? left right = none ↔ lines left = lines right) ∧
    (∀ d, mismatch? left right = some d ↔
      IsLeast {k | 1 ≤ k ∧ (lines left)[k - 1]? ≠ (lines right)[k - 1]?} d.line ∧
      (lines left).take (d.line - 1) = (lines right).take (d.line - 1) ∧
      d.left = (lines left)[d.line - 1]? ∧ d.right = (lines right)[d.line - 1]?) ∧
    mismatch? right left = (mismatch? left right).map Mismatch.swap := by
  refine ⟨fun ls => isLines_iff, fun rs => isLines_iff, Mismatch.ofLines_eq_none 1, fun d => ?_,
    Mismatch.ofLines_swap 1 _ _⟩
  constructor
  · intro found
    obtain ⟨i, least, rfl⟩ := Mismatch.exists_least_of_ofLines found
    rw [Nat.add_sub_cancel_left]
    exact ⟨Mismatch.isLeast_number least, Mismatch.take_eq_take least, rfl, rfl⟩
  · rintro ⟨least, -, here, there⟩
    cases found : mismatch? left right with
    | none =>
        have same := (Mismatch.ofLines_eq_none 1).mp found
        exact absurd (congrArg (fun ls : List (List Char) => ls[d.line - 1]?) same) least.1.2
    | some other =>
        obtain ⟨i, first, rfl⟩ := Mismatch.exists_least_of_ofLines found
        have line := IsLeast.unique (Mismatch.isLeast_number first) least
        obtain ⟨number, l, r⟩ := d
        dsimp only at line here there
        subst line
        rw [here, there, Nat.add_sub_cancel_left]

end Haml.Text
