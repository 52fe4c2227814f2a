import Haml.Interpolation
/-! Markers: where an expression starts in a text, and where a backslash keeps one from starting. -/

namespace Haml.Interpolation

abbrev Marked (cs : List Char) : Prop := ['#', '{'] <+: cs

/-- Whether a backslash stands right before each marker of a text. -/
def Guarded (cs : List Char) : Prop :=
  ∀ before after, cs = before ++ '#' :: '{' :: after → before.getLast? = some '\\'

def escape : List Char → List Char
  | '#' :: '{' :: rest => '\\' :: '#' :: '{' :: escape rest
  | c :: rest => c :: escape rest
  | [] => []

variable {c : Char} {cs rest : List Char}

theorem exists_of_marked (marked : Marked cs) : ∃ after, cs = '#' :: '{' :: after := by
  obtain ⟨after, whole⟩ := marked
  exact ⟨after, whole.symm⟩

theorem isMarked_cons (here : ¬ Marked (c :: cs)) (plain : c ≠ '\\') :
    isMarked (c :: cs) = isMarked cs := by
  rw [isMarked]
  · intro rest backslash _
    exact plain backslash
  · rintro rest rfl rfl
    exact here ⟨rest, rfl⟩

theorem isMarked_backslash (next : ¬ Marked cs) : isMarked ('\\' :: cs) = isMarked cs := by
  rw [isMarked]
  · rintro rest - rfl
    exact next ⟨rest, rfl⟩
  · intro rest other _
    exact absurd other (by decide)

theorem splitFrom_cons {literal : List Char} (here : ¬ Marked (c :: cs))
    (plain : c = '\\' → ¬ Marked cs) :
    splitFrom literal (c :: cs) = splitFrom (literal ++ [c]) cs := by
  rw [splitFrom]
  · rintro rest backslash rfl
    exact plain backslash ⟨rest, rfl⟩
  · rintro rest rfl rfl
    exact here ⟨rest, rfl⟩

theorem splitFrom_marker (literal rest : List Char) :
    splitFrom literal ('#' :: '{' :: rest) = (closingBrace rest).bind fun p =>
      (splitFrom [] p.2).map fun segments =>
        flush literal ++ .expression (String.ofList (Text.trim p.1)) :: segments := by
  rw [splitFrom]
  split
  · next absent => simp [absent]
  · next found => simp [found]

theorem guarded_escaped : Guarded ('\\' :: '#' :: '{' :: cs) ↔ Guarded cs := by
  constructor
  · rintro guarded before after rfl
    have last := guarded ('\\' :: '#' :: '{' :: before) after rfl
    cases before with
    | nil => cases last
    | cons c before => simpa [List.getLast?_cons] using last
  · rintro guarded (_ | ⟨c, _ | ⟨d, _ | ⟨e, before⟩⟩⟩) after whole
    · cases whole
    · cases whole
      rfl
    · cases whole
    · cases whole
      rw [List.getLast?_cons, List.getLast?_cons, List.getLast?_cons, guarded before after rfl]
      rfl

theorem guarded_cons (here : ¬ Marked (c :: cs)) (plain : c = '\\' → ¬ Marked cs) :
    Guarded (c :: cs) ↔ Guarded cs := by
  constructor
  · rintro guarded before after rfl
    have last := guarded (c :: before) after rfl
    cases before with
    | nil =>
        obtain rfl : c = '\\' := by simpa using last
        exact absurd (List.prefix_append ['#', '{'] after) (plain rfl)
    | cons d before => simpa [List.getLast?_cons] using last
  · rintro guarded (_ | ⟨d, before⟩) after whole
    · exact absurd ⟨after, whole.symm⟩ here
    · cases whole
      rw [List.getLast?_cons, guarded before after rfl]
      rfl

/-- No expression starts in a text exactly if each of its markers stands right after a backslash. -/
theorem isMarked_eq_false_iff : isMarked cs = false ↔ Guarded cs := by
  fun_induction isMarked cs with
  | case1 rest ih => exact ih.trans guarded_escaped.symm
  | case2 rest =>
      refine ⟨fun unmarked => ?_, fun guarded => ?_⟩
      · cases unmarked
      · cases guarded [] rest rfl
  | case3 c rest escaped marked ih =>
      refine ih.trans (guarded_cons ?_ ?_).symm
      · rintro ⟨after, same⟩
        cases same
        exact marked after rfl rfl
      · rintro rfl ⟨after, same⟩
        exact escaped after rfl same.symm
  | case4 =>
      refine ⟨fun _ before after whole => ?_, fun _ => rfl⟩
      cases before <;> cases whole

theorem head?_escape (closed : rest.head? ≠ some '{')
    (opened : (escape cs ++ rest).head? = some '{') : cs.head? = some '{' := by
  fun_cases escape cs with
  | case1 => cases opened
  | case2 c cs unmarked =>
      rw [escape] at opened
      · exact opened
      · exact unmarked
  | case3 => exact absurd opened closed

theorem eq_nil_of_marked (closed : rest.head? ≠ some '{') (marked : Marked (escape cs ++ rest)) :
    cs = [] := by
  fun_cases escape cs with
  | case1 => simp [escape] at marked
  | case2 c cs unmarked =>
      rw [escape] at marked
      · obtain ⟨rfl, tail, same⟩ := List.cons_prefix_cons.mp marked
        have opened : (escape cs ++ rest).head? = some '{' := congrArg List.head? same.symm
        obtain ⟨tail, rfl⟩ := List.head?_eq_some_iff.mp (head?_escape closed opened)
        exact absurd rfl (unmarked tail rfl)
      · exact unmarked
  | case3 => rfl

theorem not_marked_escape (cs : List Char) : ¬ Marked (escape cs) := by
  intro marked
  have closed : ([] : List Char).head? ≠ some '{' := nofun
  obtain rfl := eq_nil_of_marked closed (by rwa [List.append_nil])
  cases marked with
  | intro after same => cases same

theorem isMarked_escape (cs : List Char) : isMarked (escape cs) = false := by
  fun_induction escape cs with
  | case1 rest ih => rw [isMarked, ih]
  | case2 c rest unmarked ih =>
      have start : escape (c :: rest) = c :: escape rest := by
        rw [escape]
        exact unmarked
      have here : ¬ Marked (c :: escape rest) := by
        rw [← start]
        exact not_marked_escape _
      by_cases backslash : c = '\\'
      · rw [backslash, isMarked_backslash (not_marked_escape rest), ih]
      · rw [isMarked_cons here backslash, ih]
  | case3 => rfl

end Haml.Interpolation
