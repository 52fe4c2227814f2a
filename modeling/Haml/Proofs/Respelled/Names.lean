import Haml.Datum.Kdl
import Mathlib.Data.List.Basic
import Mathlib.Data.List.TakeWhile
/-! Names in KDL as they are written: a name reads as its value also where its spelling stands
alone. -/

namespace Haml.Kdl

variable {cs rest t : List Char} {c : Char}

theorem dropWhile_takeWhile_append {p : Char → Bool} {tail : List Char}
    (same : tail.head? = (cs.dropWhile p).head?) : (cs.takeWhile p ++ tail).dropWhile p = tail := by
  rw [List.dropWhile_append_of_pos fun d member => List.mem_takeWhile_imp member]
  cases tail with
  | nil => rfl
  | cons d tail =>
      have first := List.head?_dropWhile_not p cs
      rw [← same] at first
      simpa using first

/-! Escapes -/

theorem unclosed (free : '}' ∉ cs) : ∀ d ∈ cs, (d != '}') = true := by
  intro d member
  refine bne_iff_ne.mpr ?_
  rintro rfl
  exact free member

theorem escaped?_braced {digits : List Char} (run : cs.takeWhile (· != '}') = digits) :
    escaped? ('u' :: '{' :: cs) =
      if digits.isEmpty || 6 < digits.length || digits.length = cs.length then none
      else (Json.codeUnit? digits).bind fun n =>
        if n.isValidChar then some ([Char.ofNat n], cs.drop (digits.length + 1)) else none := by
  rw [← run]
  rfl

theorem escaped?_unclosed (free : '}' ∉ cs) : escaped? ('u' :: '{' :: cs) = none := by
  rw [escaped?_braced (List.takeWhile_eq_self_iff.mpr (unclosed free))]
  simp

theorem escaped?_closed {digits : List Char} (free : '}' ∉ digits) (tail : List Char) :
    escaped? ('u' :: '{' :: (digits ++ '}' :: tail)) =
      if digits.isEmpty || 6 < digits.length then none
      else (Json.codeUnit? digits).bind fun n =>
        if n.isValidChar then some ([Char.ofNat n], tail) else none := by
  have run : (digits ++ '}' :: tail).takeWhile (· != '}') = digits := by
    rw [List.takeWhile_append_of_pos (unclosed free)]
    simp
  have after : (digits ++ '}' :: tail).drop (digits.length + 1) = tail := by
    simp [List.drop_append]
  have ended : decide (digits.length = (digits ++ '}' :: tail).length) = false := by simp
  rw [escaped?_braced run, after, ended, Bool.or_false]

theorem escaped?_plain (plain : c = 'u' → cs.head? ≠ some '{') :
    escaped? (c :: cs) =
      if isBlank c || isNewline c then some ([], cs.dropWhile fun c => isBlank c || isNewline c)
      else (escape? c).map fun c => ([c], cs) := by
  unfold escaped?
  split
  · next same =>
      obtain ⟨unicode, rfl⟩ := List.cons.inj same
      exact absurd rfl (plain unicode)
  · next same =>
      cases same
      rfl
  · next same => cases same

theorem escaped?_closed_alone (found : escaped? ('u' :: '{' :: cs) = some (t, rest)) :
    ∃ used, cs = used ++ rest ∧
      ∀ tail, escaped? ('u' :: '{' :: (used ++ tail)) = some (t, tail) := by
  by_cases closed : '}' ∈ cs
  · obtain ⟨digits, after, rfl, free⟩ := List.eq_append_cons_of_mem closed
    rw [escaped?_closed free] at found
    split at found
    · cases found
    · next accepted =>
        obtain ⟨n, unit, taken⟩ := Option.bind_eq_some_iff.mp found
        split at taken
        · next valid =>
            cases taken
            refine ⟨digits ++ ['}'], by simp, fun tail => ?_⟩
            rw [List.append_assoc, List.singleton_append, escaped?_closed free, if_neg accepted,
              unit, Option.bind_some, if_pos valid]
        · cases taken
  · rw [escaped?_unclosed closed] at found
    cases found

/-- An escape reads the same with anything behind it that adds no blanks to those that it leaves
out. -/
theorem escaped?_alone (found : escaped? cs = some (t, rest)) :
    ∃ used, cs = used ++ rest ∧
      ∀ tail, tail.head? = rest.head? → escaped? (used ++ tail) = some (t, tail) := by
  cases cs with
  | nil => cases found
  | cons c cs =>
      by_cases unicode : c = 'u' ∧ cs.head? = some '{'
      · obtain ⟨rfl, braced⟩ := unicode
        obtain ⟨behind, rfl⟩ := List.head?_eq_some_iff.mp braced
        obtain ⟨used, rfl, alone⟩ := escaped?_closed_alone found
        exact ⟨'u' :: '{' :: used, rfl, fun tail _ => alone tail⟩
      · rw [escaped?_plain (not_and.mp unicode)] at found
        split at found
        · next blank =>
            cases found
            have letter : c ≠ 'u' := by
              rintro rfl
              exact absurd blank (by decide)
            refine ⟨c :: cs.takeWhile fun c => isBlank c || isNewline c, ?_, fun tail same => ?_⟩
            · rw [List.cons_append, List.takeWhile_append_dropWhile]
            · rw [List.cons_append, escaped?_plain (absurd · letter), if_pos blank,
                dropWhile_takeWhile_append same]
        · next plain =>
            obtain ⟨d, known, same⟩ := Option.map_eq_some_iff.mp found
            cases same
            have letter : c ≠ 'u' := by
              rintro rfl
              cases known
            refine ⟨[c], rfl, fun tail _ => ?_⟩
            rw [List.singleton_append, escaped?_plain (absurd · letter), if_neg plain, known]
            rfl

/-! Texts in quotes -/

theorem exists_step {fuel : Nat} (enough : (c :: cs).length ≤ fuel) :
    ∃ steps, fuel = steps + 1 ∧ cs.length ≤ steps := by
  cases fuel with
  | zero => cases enough
  | succ steps => exact ⟨steps, rfl, Nat.le_of_succ_le_succ enough⟩

theorem quoted_quote (steps : Nat) (cs : List Char) :
    quoted (steps + 1) ('"' :: cs) = some ([], cs) := rfl

theorem quoted_escape (steps : Nat) (cs : List Char) :
    quoted (steps + 1) ('\\' :: cs) = (escaped? cs).bind fun p =>
      (quoted steps p.2).bind fun q => some (p.1 ++ q.1, q.2) := rfl

theorem quoted_plain (quote : c ≠ '"') (slash : c ≠ '\\') (steps : Nat) (cs : List Char) :
    quoted (steps + 1) (c :: cs) =
      if isNewline c || isForbidden c then none
      else (quoted steps cs).map fun (text, after) => (c :: text, after) := by
  rw [quoted, if_neg (by simpa using quote), if_neg (by simpa using slash)]

/-- A text in quotes reads the same alone. The induction is on the steps that are left. -/
theorem quoted_alone {steps : Nat} (found : quoted steps cs = some (t, rest)) :
    ∃ used, used ≠ [] ∧ cs = used ++ rest ∧
      ∀ fuel, used.length ≤ fuel → quoted fuel used = some (t, []) := by
  induction steps generalizing cs t with
  | zero => cases found
  | succ steps ih =>
      cases cs with
      | nil => cases found
      | cons c cs =>
          by_cases quote : c = '"'
          · subst quote
            rw [quoted_quote] at found
            cases found
            refine ⟨['"'], List.cons_ne_nil _ [], rfl, fun fuel enough => ?_⟩
            obtain ⟨fuel, rfl, -⟩ := exists_step enough
            exact quoted_quote fuel []
          by_cases slash : c = '\\'
          · subst slash
            rw [quoted_escape] at found
            obtain ⟨⟨first, behind⟩, escape, found⟩ := Option.bind_eq_some_iff.mp found
            obtain ⟨⟨others, after⟩, more, found⟩ := Option.bind_eq_some_iff.mp found
            cases found
            obtain ⟨used, rfl, alone⟩ := escaped?_alone escape
            obtain ⟨further, filled, rfl, ends⟩ := ih more
            refine ⟨'\\' :: (used ++ further), List.cons_ne_nil _ _, by simp, fun fuel enough => ?_⟩
            obtain ⟨fuel, rfl, room⟩ := exists_step enough
            have same : further.head? = (further ++ after).head? := by
              obtain ⟨d, further, rfl⟩ := List.exists_cons_of_ne_nil filled
              rfl
            rw [List.length_append] at room
            rw [quoted_escape, alone further same, Option.bind_some, ends fuel (by omega)]
            rfl
          · rw [quoted_plain quote slash] at found
            split at found
            · cases found
            · next allowed =>
                obtain ⟨⟨text, after⟩, more, same⟩ := Option.map_eq_some_iff.mp found
                cases same
                obtain ⟨used, -, rfl, ends⟩ := ih more
                refine ⟨c :: used, List.cons_ne_nil c used, rfl, fun fuel enough => ?_⟩
                obtain ⟨fuel, rfl, room⟩ := exists_step enough
                rw [quoted_plain quote slash, if_neg allowed, ends fuel room]
                rfl

theorem upTo_self {ending : List Char} (filled : ending ≠ []) (long : Bool) :
    upTo ending long ending = some ([], []) := by
  have whole : ending.isPrefixOf? ending = some [] :=
    List.isPrefixOf?_eq_some_iff_append_eq.mpr (List.append_nil ending)
  obtain ⟨c, ending, rfl⟩ := List.exists_cons_of_ne_nil filled
  rw [upTo, whole]

theorem upTo_alone {ending : List Char} (filled : ending ≠ []) {long : Bool}
    (found : upTo ending long cs = some (t, rest)) :
    ∃ used, cs = used ++ rest ∧ upTo ending long used = some (t, []) := by
  induction cs generalizing t with
  | nil => cases found
  | cons c cs ih =>
      rw [upTo] at found
      split at found
      · next ended =>
          cases found
          exact ⟨ending, (List.isPrefixOf?_eq_some_iff_append_eq.mp ended).symm,
            upTo_self filled long⟩
      · next going =>
          split at found
          · cases found
          · next allowed =>
              obtain ⟨⟨text, after⟩, more, same⟩ := Option.map_eq_some_iff.mp found
              cases same
              obtain ⟨used, rfl, ends⟩ := ih more
              have still : ending.isPrefixOf? (c :: used) = none := by
                refine Option.eq_none_iff_forall_ne_some.mpr fun behind starts => ?_
                have whole := List.isPrefixOf?_eq_some_iff_append_eq.mp starts
                have longer : ending ++ (behind ++ rest) = c :: (used ++ rest) := by
                  rw [← List.append_assoc, whole, List.cons_append]
                rw [List.isPrefixOf?_eq_some_iff_append_eq.mpr longer] at going
                cases going
              refine ⟨c :: used, rfl, ?_⟩
              rw [upTo, still, if_neg allowed, ends]
              rfl

/-! Texts of several lines -/

abbrev Ends (cs : List Char) : Prop := ['"', '"', '"'] <+: cs

theorem longSource_ends (steps : Nat) (cs : List Char) :
    longSource (steps + 1) ('"' :: '"' :: '"' :: cs) = some ([], cs) := rfl

theorem longSource_escape (steps : Nat) (c : Char) (cs : List Char) :
    longSource (steps + 1) ('\\' :: c :: cs) =
      (longSource steps cs).map fun (text, after) => ('\\' :: c :: text, after) := rfl

theorem longSource_plain (going : ¬ Ends (c :: cs)) (slash : c = '\\' → cs = []) (steps : Nat) :
    longSource (steps + 1) (c :: cs) =
      if isForbidden c then none
      else (longSource steps cs).map fun (text, after) => (c :: text, after) := by
  rw [longSource]
  · rintro behind rfl rfl
    exact going (List.prefix_append _ behind)
  · rintro d behind rfl rfl
    cases slash rfl

/-- The source of a text of several lines is the same alone. The induction is on the steps that are
left. -/
theorem longSource_alone {steps : Nat} (found : longSource steps cs = some (t, rest)) :
    ∃ used, used ≠ [] ∧ cs = used ++ rest ∧
      ∀ fuel, used.length ≤ fuel → longSource fuel used = some (t, []) := by
  induction steps generalizing cs t with
  | zero => cases found
  | succ steps ih =>
      cases cs with
      | nil => cases found
      | cons c cs =>
          by_cases ended : Ends (c :: cs)
          · obtain ⟨behind, whole⟩ := ended
            rw [← whole] at found ⊢
            cases (longSource_ends steps behind).symm.trans found
            refine ⟨['"', '"', '"'], List.cons_ne_nil _ _, rfl, fun fuel enough => ?_⟩
            obtain ⟨fuel, rfl, -⟩ := exists_step enough
            exact longSource_ends fuel []
          by_cases slash : c = '\\' ∧ cs ≠ []
          · obtain ⟨rfl, filled⟩ := slash
            obtain ⟨d, cs, rfl⟩ := List.exists_cons_of_ne_nil filled
            rw [longSource_escape] at found
            obtain ⟨⟨text, after⟩, more, same⟩ := Option.map_eq_some_iff.mp found
            cases same
            obtain ⟨used, -, rfl, ends⟩ := ih more
            refine ⟨'\\' :: d :: used, List.cons_ne_nil _ _, rfl, fun fuel enough => ?_⟩
            obtain ⟨fuel, rfl, room⟩ := exists_step enough
            rw [longSource_escape, ends fuel (Nat.le_of_succ_le room)]
            rfl
          · have plain : c = '\\' → cs = [] := by simpa using slash
            rw [longSource_plain ended plain] at found
            split at found
            · cases found
            · next allowed =>
                obtain ⟨⟨text, after⟩, more, same⟩ := Option.map_eq_some_iff.mp found
                cases same
                obtain ⟨used, filled, rfl, ends⟩ := ih more
                have going : ¬ Ends (c :: used) := fun starts =>
                  ended (starts.trans ⟨rest, List.cons_append⟩)
                have letter : c = '\\' → used = [] := fun slash =>
                  (List.append_eq_nil_iff.mp (plain slash)).1
                refine ⟨c :: used, List.cons_ne_nil c used, rfl, fun fuel enough => ?_⟩
                obtain ⟨fuel, rfl, room⟩ := exists_step enough
                rw [longSource_plain going letter, if_neg allowed, ends fuel room]
                rfl

/-! Names -/

/-- Whether quotes stand here that make a text one of several lines if there is one before them. -/
abbrev Long (cs : List Char) : Prop := ['"', '"'] <+: cs

theorem string?_quoted (short : ¬ Long cs) :
    string? ('"' :: cs) = some (quoted (cs.length + 1) cs) := by
  rw [string?]
  rintro rest rfl
  exact short ⟨rest, rfl⟩

theorem string?_quoted_long (cs : List Char) :
    string? ('"' :: '"' :: '"' :: cs) = some ((longSource (cs.length + 1) cs).bind fun p =>
      (dedent (dropEscapedBlanks (p.1.length + 1) p.1)).bind fun lines =>
        (unescape (lines.length + 1) lines).bind fun text => some (text, p.2)) := rfl

theorem string?_quoted_alone (found : string? ('"' :: cs) = some (some (t, rest))) :
    ∃ used, cs = used ++ rest ∧ string? ('"' :: used) = some (some (t, [])) := by
  by_cases long : Long cs
  · obtain ⟨cs, rfl⟩ := long
    rw [List.cons_append, List.cons_append, List.nil_append, string?_quoted_long] at found
    obtain ⟨⟨source, after⟩, read, found⟩ := Option.bind_eq_some_iff.mp (Option.some.inj found)
    obtain ⟨lines, dedented, found⟩ := Option.bind_eq_some_iff.mp found
    obtain ⟨text, unescaped, found⟩ := Option.bind_eq_some_iff.mp found
    cases found
    obtain ⟨used, -, rfl, ends⟩ := longSource_alone read
    refine ⟨'"' :: '"' :: used, rfl, ?_⟩
    rw [string?_quoted_long, ends _ (Nat.le_succ _), Option.bind_some, dedented, Option.bind_some,
      unescaped]
    rfl
  · rw [string?_quoted long] at found
    obtain ⟨used, -, rfl, ends⟩ := quoted_alone (Option.some.inj found)
    have short : ¬ Long used := fun starts => long (starts.trans ⟨rest, rfl⟩)
    refine ⟨used, rfl, ?_⟩
    rw [string?_quoted short, ends _ (Nat.le_succ _)]

section Marks

variable {marks : List Char}

theorem takeWhile_marks (all : ∀ d ∈ marks, (d == '#') = true) (cs : List Char) :
    (marks ++ '"' :: cs).takeWhile (· == '#') = marks := by
  rw [List.takeWhile_append_of_pos all]
  simp

theorem string?_marked_long (marked : '#' ∈ marks.head?) (all : ∀ d ∈ marks, (d == '#') = true)
    (cs : List Char) :
    string? (marks ++ '"' :: '"' :: '"' :: cs) =
      some ((upTo ("\"\"\"".toList ++ marks) true cs).bind fun p =>
        (dedent p.1).bind fun text => some (text, p.2)) := by
  have run := takeWhile_marks all ('"' :: '"' :: cs)
  obtain ⟨marks, rfl⟩ := List.head?_eq_some_iff.mp marked
  rw [List.cons_append] at run ⊢
  rw [string?, run, List.length_cons, List.drop_succ_cons, List.drop_left]
  rfl

theorem string?_marked (marked : '#' ∈ marks.head?) (all : ∀ d ∈ marks, (d == '#') = true)
    (short : ¬ Long cs) :
    string? (marks ++ '"' :: cs) = some (upTo ('"' :: marks) false cs) := by
  have run := takeWhile_marks all cs
  obtain ⟨marks, rfl⟩ := List.head?_eq_some_iff.mp marked
  rw [List.cons_append] at run ⊢
  rw [string?, run, List.length_cons, List.drop_succ_cons, List.drop_left]
  split
  · next same => exact absurd ⟨_, (List.cons.inj same).2.symm⟩ short
  · next same =>
      cases same
      rfl
  · next other => exact absurd rfl (other cs)

theorem string?_marked_alone (marked : '#' ∈ marks.head?) (all : ∀ d ∈ marks, (d == '#') = true)
    (found : string? (marks ++ '"' :: cs) = some (some (t, rest))) :
    ∃ used, cs = used ++ rest ∧ string? (marks ++ '"' :: used) = some (some (t, [])) := by
  by_cases long : Long cs
  · obtain ⟨cs, rfl⟩ := long
    rw [List.cons_append, List.cons_append, List.nil_append,
      string?_marked_long marked all] at found
    obtain ⟨⟨source, after⟩, read, found⟩ := Option.bind_eq_some_iff.mp (Option.some.inj found)
    obtain ⟨text, dedented, found⟩ := Option.bind_eq_some_iff.mp found
    cases found
    obtain ⟨used, rfl, ends⟩ := upTo_alone (by simp) read
    refine ⟨'"' :: '"' :: used, rfl, ?_⟩
    rw [string?_marked_long marked all, ends, Option.bind_some, dedented]
    rfl
  · rw [string?_marked marked all long] at found
    obtain ⟨used, rfl, ends⟩ := upTo_alone (List.cons_ne_nil _ _) (Option.some.inj found)
    have short : ¬ Long used := fun starts => long (starts.trans ⟨rest, rfl⟩)
    exact ⟨used, rfl, by rw [string?_marked marked all short, ends]⟩

end Marks

theorem exists_marks {r : Option (List Char × List Char)} (found : string? ('#' :: cs) = some r) :
    ∃ marks behind, '#' :: cs = marks ++ '"' :: behind ∧ '#' ∈ marks.head? ∧
      ∀ d ∈ marks, (d == '#') = true := by
  have whole := List.takeWhile_append_dropWhile (p := (· == '#')) (l := '#' :: cs)
  have first : '#' ∈ (('#' :: cs).takeWhile (· == '#')).head? := by simp
  have all : ∀ d ∈ ('#' :: cs).takeWhile (· == '#'), (d == '#') = true :=
    fun d member => List.mem_takeWhile_imp (p := (· == '#')) member
  rw [string?] at found
  generalize ('#' :: cs).takeWhile (· == '#') = marks at whole first all found
  rw [← whole] at found ⊢
  rw [List.drop_left] at found
  split at found
  · next same => exact ⟨marks, _, by rw [same], first, all⟩
  · next same => exact ⟨marks, _, by rw [same], first, all⟩
  · cases found

theorem string?_plain (quote : c ≠ '"') (mark : c ≠ '#') (cs : List Char) :
    string? (c :: cs) = none := by
  rw [string?]
  · exact fun rest same => quote (List.cons.inj same).1
  · exact fun rest same => quote (List.cons.inj same).1
  · exact fun rest same => mark (List.cons.inj same).1

theorem string?_alone (found : string? cs = some (some (t, rest))) :
    ∃ used, cs = used ++ rest ∧ string? used = some (some (t, [])) := by
  cases cs with
  | nil => cases found
  | cons c cs =>
      by_cases quote : c = '"'
      · subst quote
        obtain ⟨used, rfl, alone⟩ := string?_quoted_alone found
        exact ⟨'"' :: used, rfl, alone⟩
      by_cases mark : c = '#'
      · subst mark
        obtain ⟨marks, behind, whole, marked, all⟩ := exists_marks found
        rw [whole] at found ⊢
        obtain ⟨used, rfl, alone⟩ := string?_marked_alone marked all found
        exact ⟨marks ++ '"' :: used, by simp, alone⟩
      · rw [string?_plain quote mark] at found
        cases found

theorem name?_alone (found : name? cs = some (t, rest)) :
    ∃ used, cs = used ++ rest ∧ string? used = none ∧ name? used = some (t, []) := by
  have whole := List.takeWhile_append_dropWhile (p := isNameChar) (l := cs)
  have named : ∀ d ∈ cs.takeWhile isNameChar, isNameChar d = true :=
    fun d member => List.mem_takeWhile_imp member
  rw [name?] at found
  generalize cs.takeWhile isNameChar = used at whole named found
  split at found
  · cases found
  · next accepted =>
      cases found
      refine ⟨t, whole.symm, ?_, ?_⟩
      · cases t with
        | nil => rfl
        | cons d ds =>
            have first := named d (List.mem_cons_self ..)
            apply string?_plain
            · rintro rfl
              exact absurd first (by decide)
            · rintro rfl
              exact absurd first (by decide)
      · rw [name?, List.takeWhile_eq_self_iff.mpr named, List.dropWhile_eq_nil_iff.mpr named,
          if_neg accepted]

theorem text_alone {value : String} (found : text cs = some (value, rest)) :
    ∃ used, cs = used ++ rest ∧ text used = some (value, []) := by
  obtain ⟨⟨t, after⟩, read, same⟩ := Option.map_eq_some_iff.mp found
  cases same
  cases quoted : string? cs with
  | some result =>
      rw [quoted, Option.getD_some] at read
      subst read
      obtain ⟨used, rfl, alone⟩ := string?_alone quoted
      refine ⟨used, rfl, ?_⟩
      rw [text, alone]
      rfl
  | none =>
      rw [quoted, Option.getD_none] at read
      obtain ⟨used, rfl, unquoted, alone⟩ := name?_alone read
      refine ⟨used, rfl, ?_⟩
      rw [text, unquoted, Option.getD_none, alone]
      rfl

/-- Whether a name is written so that it reads as its value. -/
def Name.Reads (n : Name) : Prop := text n.spelling.toList = some (n.value, [])

theorem Name.reads_of_read {n : Name} (found : Name.read cs = some (n, rest)) : n.Reads := by
  obtain ⟨⟨value, after⟩, read, same⟩ := Option.map_eq_some_iff.mp found
  cases same
  obtain ⟨used, rfl, alone⟩ := text_alone read
  rw [Reads, List.length_append, Nat.add_sub_cancel, List.take_left, String.toList_ofList]
  exact alone

theorem Name.Reads.value_eq {n other : Name} (reads : n.Reads) (reads' : other.Reads)
    (same : n.spelling = other.spelling) : n.value = other.value := by
  unfold Reads at reads reads'
  rw [same, reads'] at reads
  exact (congrArg Prod.fst (Option.some.inj reads)).symm

end Haml.Kdl
