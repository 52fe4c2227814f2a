import Haml.Attribute.Token
import Mathlib.Data.List.TakeWhile
/-! Scanning texts put together: where a text is followed by a character that goes on with no token,
the tokens of the whole are those of the text and those of the rest. -/

namespace Haml.Attribute.Token

/-- Whether no token goes on with a character, unless it is a quoted text or white space. -/
def stops (c : Char) : Bool := !isNameChar c && c != '>' && c != '.' && c != '+'

def unclosed (t : Token) : Bool :=
  t.is .other && (t.text.head? == some '"' || t.text.head? == some '\'')

def Quoted (cs : List Char) : Prop := ∀ t ∈ scan cs, t.unclosed = false

section

variable {c : Char} (rest : List Char)

theorem isDigit_of_stops (stop : stops c = true) : c.isDigit = false := by
  simp only [stops, isNameChar, Char.isAlphanum, Bool.and_eq_true, Bool.not_eq_true',
    Bool.or_eq_false_iff] at stop
  exact stop.1.1.1.1.1.2

theorem isNameStart_of_stops (stop : stops c = true) : isNameStart c = false := by
  simp only [stops, isNameChar, Char.isAlphanum, Bool.and_eq_true, Bool.not_eq_true',
    Bool.or_eq_false_iff] at stop
  rw [isNameStart, stop.1.1.1.1.1.1, stop.1.1.1.1.2]
  rfl

theorem isNameChar_of_stops (stop : stops c = true) : isNameChar c = false := by
  simp only [stops, Bool.and_eq_true, Bool.not_eq_true'] at stop
  exact stop.1.1.1

theorem takeWhile_before {p : Char → Bool} (stop : p c = false) (cs : List Char) :
    (cs ++ c :: rest).takeWhile p = cs.takeWhile p := by
  induction cs with
  | nil => rw [List.nil_append, List.takeWhile_cons_of_neg (by simp [stop]), List.takeWhile_nil]
  | cons d cs ih =>
      rw [List.cons_append, List.takeWhile_cons, List.takeWhile_cons, ih]

theorem takeWhile_append_of_not_all {p : Char → Bool} {cs : List Char} (other : cs.all p = false)
    (rest : List Char) : (cs ++ rest).takeWhile p = cs.takeWhile p := by
  have short : (cs.takeWhile p).length ≠ cs.length := by
    intro same
    have whole := (List.takeWhile_prefix p).eq_of_length same
    rw [List.all_eq_true.mpr (List.takeWhile_eq_self_iff.mp whole)] at other
    cases other
  rw [List.takeWhile_append, if_neg short]

theorem digitCount_le (cs : List Char) : digitCount cs ≤ cs.length :=
  (List.takeWhile_sublist _).length_le

theorem digitCount_before (stop : stops c = true) (cs : List Char) :
    digitCount (cs ++ c :: rest) = digitCount cs := by
  rw [digitCount, takeWhile_before rest (isDigit_of_stops stop), digitCount]

theorem fractionLength_le (cs : List Char) : fractionLength cs ≤ cs.length := by
  unfold fractionLength
  split
  · next cs =>
      have digits := digitCount_le cs
      split
      · exact Nat.zero_le _
      · exact Nat.succ_le_succ digits
  · exact Nat.zero_le _

theorem fractionLength_before (stop : stops c = true) (cs : List Char) :
    fractionLength (cs ++ c :: rest) = fractionLength cs := by
  have point : c ≠ '.' := by
    rintro rfl
    cases stop
  cases cs with
  | nil => simp [fractionLength, point]
  | cons d cs =>
      by_cases here : d = '.'
      · subst here
        simp only [List.cons_append, fractionLength, digitCount_before rest stop]
      · simp [fractionLength, here]

def signLength : List Char → Nat
  | '+' :: _ => 1
  | '-' :: _ => 1
  | _ => 0

theorem signLength_le (cs : List Char) : signLength cs ≤ cs.length := by
  unfold signLength
  split
  · exact Nat.succ_le_succ (Nat.zero_le _)
  · exact Nat.succ_le_succ (Nat.zero_le _)
  · exact Nat.zero_le _

theorem signLength_before (stop : stops c = true) (cs : List Char) :
    signLength (cs ++ c :: rest) = signLength cs := by
  cases cs with
  | nil =>
      have plus : c ≠ '+' := by
        rintro rfl
        cases stop
      have minus : c ≠ '-' := by
        rintro rfl
        cases stop
      simp [signLength, plus, minus]
  | cons d cs =>
      by_cases plus : d = '+'
      · subst plus
        rfl
      by_cases minus : d = '-'
      · subst minus
        rfl
      simp [signLength, plus, minus]

theorem exponentLength_cons (d : Char) (cs : List Char) :
    exponentLength (d :: cs) =
      if d == 'e' || d == 'E' then
        if digitCount (cs.drop (signLength cs)) = 0 then 0
        else digitCount (cs.drop (signLength cs)) + signLength cs + 1
      else 0 := rfl

theorem exponentLength_le (cs : List Char) : exponentLength cs ≤ cs.length := by
  cases cs with
  | nil => exact Nat.zero_le _
  | cons d cs =>
      have sign := signLength_le cs
      have digits := digitCount_le (cs.drop (signLength cs))
      rw [List.length_drop] at digits
      rw [exponentLength_cons, List.length_cons]
      split
      · split <;> omega
      · exact Nat.zero_le _

theorem exponentLength_before (stop : stops c = true) (cs : List Char) :
    exponentLength (cs ++ c :: rest) = exponentLength cs := by
  cases cs with
  | nil =>
      have small : c ≠ 'e' := by
        rintro rfl
        cases stop
      have capital : c ≠ 'E' := by
        rintro rfl
        cases stop
      simp [exponentLength, small, capital]
  | cons d cs =>
      rw [List.cons_append, exponentLength_cons, exponentLength_cons, signLength_before rest stop,
        List.drop_append_of_le_length (signLength_le cs), digitCount_before rest stop]

theorem numberLength_le (cs : List Char) : numberLength cs ≤ cs.length := by
  have whole := digitCount_le cs
  have fraction := fractionLength_le (cs.drop (digitCount cs))
  have exponent := exponentLength_le
    (cs.drop (digitCount cs + fractionLength (cs.drop (digitCount cs))))
  rw [List.length_drop] at fraction exponent
  unfold numberLength
  simp only
  split
  · exact Nat.zero_le _
  · omega

theorem numberLength_before (stop : stops c = true) (cs : List Char) :
    numberLength (cs ++ c :: rest) = numberLength cs := by
  have whole := digitCount_le cs
  have fraction := fractionLength_le (cs.drop (digitCount cs))
  rw [List.length_drop] at fraction
  unfold numberLength
  rw [digitCount_before rest stop]
  simp only
  rw [List.drop_append_of_le_length whole, fractionLength_before rest stop,
    List.drop_append_of_le_length (by omega), exponentLength_before rest stop]

theorem nameLength_le (cs : List Char) : nameLength cs ≤ cs.length := by
  cases cs with
  | nil => exact Nat.zero_le _
  | cons d cs =>
      have most := (List.takeWhile_sublist isNameChar (l := cs)).length_le
      rw [nameLength, List.length_cons]
      split <;> omega

theorem nameLength_before (stop : stops c = true) (cs : List Char) :
    nameLength (cs ++ c :: rest) = nameLength cs := by
  cases cs with
  | nil => simp [nameLength, isNameStart_of_stops stop]
  | cons d cs =>
      rw [List.cons_append, nameLength, nameLength, takeWhile_before rest (isNameChar_of_stops stop)]

theorem quotedLength_le (quote : Char) (cs : List Char) : (quotedLength quote cs).2 ≤ cs.length := by
  fun_induction quotedLength quote cs <;> simp_all

theorem quotedLength_cons {quote d : Char} (plain : d ≠ '\\') (cs : List Char) :
    quotedLength quote (d :: cs) =
      if d == quote then (true, 1)
      else ((quotedLength quote cs).1, (quotedLength quote cs).2 + 1) := by
  have backslash : (d == '\\') = false := beq_eq_false_iff_ne.mpr plain
  rw [quotedLength]
  · rw [backslash]
    rfl
  · intro e es same
    exact absurd same plain

theorem quotedLength_before {quote : Char} (other : quote ≠ '\\') {cs : List Char}
    (closed : (quotedLength quote cs).1 = true) (rest : List Char) :
    quotedLength quote (cs ++ rest) = quotedLength quote cs := by
  fun_induction quotedLength quote cs with
  | case1 => cases closed
  | case2 => cases closed
  | case3 d cs escaped ended n found ih =>
      have same := ih (by rw [found]; exact closed)
      rw [List.cons_append, List.cons_append, quotedLength, if_neg escaped, same, found]
  | case4 d cs _ here =>
      obtain rfl := beq_iff_eq.mp here
      rw [List.cons_append, quotedLength_cons other, if_pos here]
  | case5 => cases closed
  | case6 d cs _ inside plain ended n found ih =>
      have same := ih (by rw [found]; exact closed)
      have plain : d ≠ '\\' := fun backslash => plain (beq_iff_eq.mpr backslash)
      rw [List.cons_append, quotedLength_cons plain, if_neg inside, same, found]

/-- A token is the same if the text goes on with a character that no token goes on with. -/
theorem classify_before (stop : stops c = true) {d : Char} {cs : List Char}
    (closed : (classify d cs).1 = .other → d ≠ '"' ∧ d ≠ '\'')
    (apart : isBlankChar c = true → cs.all isBlankChar = true → isBlankChar d = false) :
    classify d (cs ++ c :: rest) = classify d cs := by
  fun_cases classify d cs with
  | case8 rocket =>
      obtain ⟨as, rfl⟩ := List.head?_eq_some_iff.mp rocket
      rfl
  | case9 plain =>
      have arrow : c ≠ '>' := by
        rintro rfl
        cases stop
      have head : (cs ++ c :: rest).head? ≠ some '>' := by
        cases cs with
        | nil => simpa using arrow
        | cons e es => exact plain
      rw [classify, if_neg head]
  | case10 missing => rw [classify, nameLength_before rest stop, if_pos missing]
  | case11 name => rw [classify, nameLength_before rest stop, if_neg name]
  | case12 ended n found =>
      have whole : ended = true := by
        cases ended with
        | true => rfl
        | false => simp [classify, found] at closed
      have ends : (quotedLength '"' cs).1 = true := by
        rw [found]
        exact whole
      have same := quotedLength_before (by decide) ends (c :: rest)
      simp only [classify, same, found]
  | case13 ended n found =>
      have whole : ended = true := by
        cases ended with
        | true => rfl
        | false => simp [classify, found] at closed
      have ends : (quotedLength '\'' cs).1 = true := by
        rw [found]
        exact whole
      have same := quotedLength_before (by decide) ends (c :: rest)
      simp only [classify, same, found]
  | case14 missing => rw [classify, numberLength_before rest stop, if_pos missing]
  | case15 number => rw [classify, numberLength_before rest stop, if_neg number]
  | case16 =>
      rename_i name
      rw [classify, if_pos name, takeWhile_before rest (isNameChar_of_stops stop)]
      all_goals assumption
  | case17 =>
      rename_i other digit
      rw [classify, if_neg other, if_pos digit, ← List.cons_append, numberLength_before rest stop]
      all_goals assumption
  | case18 =>
      rename_i other plain blank
      have same : (cs ++ c :: rest).takeWhile isBlankChar = cs.takeWhile isBlankChar := by
        cases space : isBlankChar c with
        | false => exact takeWhile_before rest space cs
        | true =>
            refine takeWhile_append_of_not_all (Bool.eq_false_iff.mpr fun all => ?_) (c :: rest)
            rw [apart space all] at blank
            cases blank
      rw [classify, if_neg other, if_neg plain, if_pos blank, same]
      all_goals assumption
  | case19 =>
      rename_i other plain visible
      rw [classify, if_neg other, if_neg plain, if_neg visible]
      all_goals assumption
  | _ => rfl

end

theorem classify_le (d : Char) (cs : List Char) : (classify d cs).2 ≤ cs.length := by
  have name := (List.takeWhile_sublist isNameChar (l := cs)).length_le
  have blank := (List.takeWhile_sublist isBlankChar (l := cs)).length_le
  fun_cases classify d cs with
  | case8 rocket =>
      obtain ⟨as, rfl⟩ := List.head?_eq_some_iff.mp rocket
      exact Nat.succ_le_succ (Nat.zero_le _)
  | case11 => exact nameLength_le cs
  | case12 ended n found =>
      have most := quotedLength_le '"' cs
      rw [found] at most
      exact most
  | case13 ended n found =>
      have most := quotedLength_le '\'' cs
      rw [found] at most
      exact most
  | case15 => exact numberLength_le cs
  | case16 => exact name
  | case17 =>
      have most := numberLength_le (d :: cs)
      rw [List.length_cons] at most
      exact Nat.sub_le_of_le_add most
  | case18 => exact blank
  | _ => exact Nat.zero_le _

theorem scan_cons {c : Char} {cs : List Char} {kind : TokenKind} {n : Nat}
    (found : classify c cs = (kind, n)) :
    scan (c :: cs) = ⟨kind, c :: cs.take n⟩ :: scan (cs.drop n) := by
  rw [scan, found]

theorem classify_name {c : Char} (start : isNameStart c = true) (cs : List Char) :
    classify c cs = (.name, (cs.takeWhile isNameChar).length) := by
  rw [classify, if_pos start]
  all_goals
    rintro rfl
    cases start

theorem classify_blank {c : Char} (space : isBlankChar c = true) (cs : List Char) :
    classify c cs = (.blank, (cs.takeWhile isBlankChar).length) := by
  simp only [isBlankChar, Bool.or_eq_true, beq_iff_eq] at space
  rcases space with ((rfl | rfl) | rfl) | rfl
  · rfl
  · rfl
  · rfl
  · rfl

theorem scan_ne_nil {cs : List Char} (filled : cs ≠ []) : scan cs ≠ [] := by
  intro absent
  have whole := texts_scan cs
  rw [absent] at whole
  exact filled whole.symm

theorem scan_space {cs : List Char} (visible : ∀ c ∈ cs.head?, isBlankChar c = false) :
    scan (' ' :: cs) = ⟨.blank, [' ']⟩ :: scan cs := by
  have empty : cs.takeWhile isBlankChar = [] := by
    cases cs with
    | nil => rfl
    | cons c cs => rw [List.takeWhile_cons_of_neg (by simp [visible c rfl])]
  have found : classify ' ' cs = (.blank, 0) := by
    rw [classify_blank rfl, empty]
    rfl
  exact scan_cons found

/-- Tokens end before a character that goes on with none. Only white space has to be kept apart from
white space, and a quoted text has to be closed. -/
theorem scan_before {c : Char} (stop : stops c = true) {cs : List Char} (quoted : Quoted cs)
    (apart : isBlankChar c = true → ∀ t ∈ (scan cs).getLast?, t.isBlank = false)
    (rest : List Char) : scan (cs ++ c :: rest) = scan cs ++ scan (c :: rest) := by
  fun_induction scan cs with
  | case1 => rfl
  | case2 d cs kind n found ih =>
      have bound := classify_le d cs
      rw [found] at bound
      rw [Quoted, scan_cons found, List.forall_mem_cons] at quoted
      have same : classify d (cs ++ c :: rest) = (kind, n) := by
        refine (classify_before rest stop (fun other => ?_) fun space all => ?_).trans found
        · rw [found] at other
          simpa [unclosed, Token.is, show kind = .other from other] using quoted.1
        · cases blank : isBlankChar d with
          | false => rfl
          | true =>
              -- White space up to the end would be one token with the white space that follows.
              have whole : cs.takeWhile isBlankChar = cs :=
                List.takeWhile_eq_self_iff.mpr (List.all_eq_true.mp all)
              have taken := (classify_blank blank cs).symm.trans found
              rw [whole] at taken
              cases taken
              have visible := apart space ⟨.blank, d :: cs.take cs.length⟩ (by simp [scan])
              cases visible
      have later : isBlankChar c = true → ∀ t ∈ (scan (cs.drop n)).getLast?, t.isBlank = false := by
        intro space t last
        refine apart space t ?_
        rw [List.getLast?_cons, Option.mem_def.mp last]
        rfl
      rw [List.cons_append, scan, same]
      simp only
      rw [List.take_append_of_le_length bound, List.drop_append_of_le_length bound,
        ih quoted.2 later, List.cons_append]

/-! Runs of tokens in which brackets nest. -/

def depthAfter (t : Token) (depth : Nat) : Nat :=
  if t.opens then depth + 1 else if t.closes then depth - 1 else depth

/-- The number of brackets left open after a run of tokens, if none is closed that is not open and no
token that satisfies `p` stands outside all brackets. -/
def level (p : Token → Bool) (depth : Nat) : List Token → Option Nat
  | [] => some depth
  | t :: ts => if depth = 0 && (p t || t.closes) then none else level p (t.depthAfter depth) ts

section

variable {p q : Token → Bool} {depth last : Nat} {t : Token} {ts : List Token}

theorem level_cons (nested : level p depth (t :: ts) = some last) :
    (depth = 0 → p t = false ∧ t.closes = false) ∧
      level p (t.depthAfter depth) ts = some last := by
  rw [level] at nested
  split at nested
  · cases nested
  · next inside =>
      refine ⟨fun outside => ?_, nested⟩
      simpa [outside] using inside

theorem level_append (p : Token → Bool) (depth : Nat) (ts others : List Token) :
    level p depth (ts ++ others) = (level p depth ts).bind fun depth => level p depth others := by
  induction ts generalizing depth with
  | nil => rfl
  | cons t ts ih =>
      rw [List.cons_append, level, level]
      split
      · rfl
      · exact ih _

theorem level_mono (nested : level p depth ts = some last) (weaker : ∀ t, q t = true → p t = true) :
    level q depth ts = some last := by
  induction ts generalizing depth with
  | nil => exact nested
  | cons t ts ih =>
      obtain ⟨here, rest⟩ := level_cons nested
      have allowed : (depth = 0 && (q t || t.closes)) = false := by
        cases outside : decide (depth = 0) with
        | false => rfl
        | true =>
            obtain ⟨free, opened⟩ := here (of_decide_eq_true outside)
            have also : q t = false := by
              cases found : q t with
              | false => rfl
              | true => exact absurd (weaker t found) (by simp [free])
            simp [also, opened]
      rw [level, allowed]
      exact ih rest

theorem level_of_flat (flat : ∀ t ∈ ts, t.opens = false ∧ t.closes = false ∧ p t = false) :
    level p depth ts = some depth := by
  induction ts with
  | nil => rfl
  | cons t ts ih =>
      obtain ⟨⟨unopened, unclosed, free⟩, others⟩ := List.forall_mem_cons.mp flat
      have stays : t.depthAfter depth = depth := by simp [depthAfter, unopened, unclosed]
      rw [level, free, unclosed, stays, ih others]
      simp

theorem kept_of_level (nested : level p depth (t :: ts) = some last) :
    (p t && decide (depth = 0)) = false := by
  cases depth with
  | zero => simp [((level_cons nested).1 rfl).1]
  | succ depth => simp

theorem closing_of_level (nested : level p depth ts = some 0) (closes : t.closes = true)
    (rest : List Token) : closing (depth + 1) (ts ++ t :: rest) = some (ts, rest) := by
  induction ts generalizing depth with
  | nil =>
      obtain rfl : depth = 0 := Option.some.inj nested
      rw [List.nil_append, closing, closes]
      rfl
  | cons u ts ih =>
      obtain ⟨outside, nested⟩ := level_cons nested
      have inside : (u.closes && decide (depth + 1 ≤ 1)) = false := by
        cases depth with
        | zero => simp [(outside rfl).2]
        | succ depth => simp
      have deeper : (if u.opens then depth + 1 + 1 else if u.closes then depth + 1 - 1
          else depth + 1) = u.depthAfter depth + 1 := by
        unfold depthAfter
        split
        · rfl
        · split
          · next closed =>
              cases depth with
              | zero => simp [(outside rfl).2] at closed
              | succ depth => rfl
          · rfl
      rw [List.cons_append, closing, inside]
      simp only [Bool.false_eq_true, if_false]
      rw [deeper, ih nested]
      rfl

/-- A run without commas outside brackets is cut at the comma that follows. -/
theorem splitCommas_of_level (nested : level (·.is .comma) depth ts = some 0)
    (comma : t.is .comma = true) (rest : List Token) :
    splitCommas depth (ts ++ t :: rest) = ts :: splitCommas 0 rest := by
  induction ts generalizing depth with
  | nil =>
      obtain rfl : depth = 0 := Option.some.inj nested
      rw [List.nil_append, splitCommas, comma]
      rfl
  | cons u ts ih =>
      rw [List.cons_append, splitCommas, kept_of_level nested]
      simp only [Bool.false_eq_true, if_false]
      rw [← depthAfter, ih (level_cons nested).2]
      rfl

theorem splitCommas_of_level_nil (nested : level (·.is .comma) depth ts = some 0) :
    splitCommas depth ts = [ts] := by
  induction ts generalizing depth with
  | nil => rfl
  | cons u ts ih =>
      rw [splitCommas, kept_of_level nested]
      simp only [Bool.false_eq_true, if_false]
      rw [← depthAfter, ih (level_cons nested).2]
      rfl

theorem trim_eq (first : ∀ t ∈ ts.head?, t.isBlank = false)
    (final : ∀ t ∈ ts.getLast?, t.isBlank = false) : trim ts = ts := by
  have front : ts.dropWhile isBlank = ts := by
    cases ts with
    | nil => rfl
    | cons t ts => rw [List.dropWhile_cons_of_neg (by simp [first t rfl])]
  rw [trim, front]
  cases reversed : ts.reverse with
  | nil => rw [List.dropWhile_nil, ← reversed, List.reverse_reverse]
  | cons t others =>
      have last : ts.getLast? = some t := by
        rw [← List.head?_reverse, reversed]
        rfl
      rw [List.dropWhile_cons_of_neg (by simp [final t last]), ← reversed, List.reverse_reverse]

theorem trim_cons (blank : t.isBlank = true) (ts : List Token) : trim (t :: ts) = trim ts := by
  rw [trim, List.dropWhile_cons_of_pos blank, trim]

end

end Haml.Attribute.Token
