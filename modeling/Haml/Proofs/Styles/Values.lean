import Haml.Attribute.Entry
import Haml.Proofs.Scanning
/-! Names and values of attributes: the texts that can be written in every style, among them quoted
texts, whole numbers and words. -/

namespace Haml

namespace Attribute

namespace Token

def separates (t : Token) : Bool := t.isBlank || t.is .comma

theorem isBlank_of_separates {t : Token} (joined : t.separates = false) : t.isBlank = false :=
  (Bool.or_eq_false_iff.mp joined).1

theorem not_blank_of_brackets {t : Token} (bracket : t.opens = true ∨ t.closes = true) :
    t.separates = false := by
  obtain ⟨kind, text⟩ := t
  cases kind <;> simp_all [opens, closes, separates, isBlank, Token.is]

/-- Runs whose brackets nest, with nothing that separates outside them, do not end with it. -/
theorem separates_getLast {ts : List Token} {depth : Nat}
    (nested : level separates depth ts = some 0) : ∀ t ∈ ts.getLast?, t.separates = false := by
  intro t last
  obtain ⟨before, rfl⟩ := List.getLast?_eq_some_iff.mp last
  rw [level_append] at nested
  obtain ⟨inside, -, final⟩ := Option.bind_eq_some_iff.mp nested
  obtain ⟨outside, ended⟩ := level_cons final
  cases inside with
  | zero => exact (outside rfl).1
  | succ inside =>
      refine not_blank_of_brackets ?_
      cases opened : t.opens with
      | true => exact .inl rfl
      | false =>
          cases closed : t.closes with
          | true => exact .inr rfl
          | false => simp [level, depthAfter, opened, closed] at ended

end Token

def IsName (n : List Char) : Prop :=
  ∃ c cs, n = c :: cs ∧ Token.isNameStart c = true ∧ ∀ d ∈ cs, Token.isNameChar d = true

/-- Whether a text can be a value in every style: quotes are closed and brackets nest, and outside
both there is neither white space nor a comma. -/
structure IsValue (v : List Char) : Prop where
  filled : v ≠ []
  quoted : Token.Quoted v
  nested : Token.level Token.separates 0 (Token.scan v) = some 0
  arrow : v.head? ≠ some '>'

/-- Whether a key and a value can be written in every style. -/
def IsPair (p : List Char × List Char) : Prop := IsName p.1 ∧ IsValue p.2

section

variable {n v : List Char}

open Token

theorem IsValue.isBlank_head (value : IsValue v) : ∀ t ∈ (scan v).head?, t.isBlank = false := by
  intro t head
  obtain ⟨ts, same⟩ := List.head?_eq_some_iff.mp head
  have nested := value.nested
  rw [same] at nested
  exact isBlank_of_separates ((level_cons nested).1 rfl).1

theorem IsValue.isBlank_getLast (value : IsValue v) :
    ∀ t ∈ (scan v).getLast?, t.isBlank = false := fun t last =>
  isBlank_of_separates (separates_getLast value.nested t last)

theorem IsValue.isBlankChar_head (value : IsValue v) :
    ∀ c ∈ v.head?, isBlankChar c = false := by
  intro c head
  obtain ⟨cs, rfl⟩ := List.head?_eq_some_iff.mp head
  cases blank : isBlankChar c with
  | false => rfl
  | true =>
      have first := value.isBlank_head
      rw [scan_cons (classify_blank blank cs)] at first
      cases first _ rfl

theorem IsName.scan_eq (named : IsName n) : scan n = [⟨.name, n⟩] := by
  obtain ⟨c, cs, rfl, start, all⟩ := named
  rw [scan_cons (classify_name start cs), List.takeWhile_eq_self_iff.mpr all, List.take_length,
    List.drop_length, scan]

theorem IsName.scan_symbol (named : IsName n) : scan (':' :: n) = [⟨.symbol, ':' :: n⟩] := by
  obtain ⟨c, cs, rfl, start, all⟩ := named
  have length : nameLength (c :: cs) = (c :: cs).length := by
    rw [nameLength, if_pos start, List.takeWhile_eq_self_iff.mpr all, List.length_cons]
  have found : classify ':' (c :: cs) = (.symbol, (c :: cs).length) := by
    rw [classify, length, if_neg (by simp)]
  rw [scan_cons found, List.take_length, List.drop_length, scan]

def IsQuote (c : Char) : Prop := c = '"' ∨ c = '\''

def quoteKind (quote : Char) : TokenKind := if quote = '"' then .doubleQuoted else .singleQuoted

theorem scan_quoted {quote : Char} (isQuote : IsQuote quote) {cs : List Char}
    (closed : quotedLength quote cs = (true, cs.length)) :
    scan (quote :: cs) = [⟨quoteKind quote, quote :: cs⟩] := by
  have found : classify quote cs = (quoteKind quote, cs.length) := by
    rcases isQuote with rfl | rfl
    · rw [classify, closed]
      rfl
    · rw [classify, closed]
      rfl
  rw [scan_cons found, List.take_length, List.drop_length, scan]

def isPlain (c : Char) : Bool := c != '"' && c != '\'' && c != '\\'

theorem quotedLength_plain {quote : Char} (isQuote : IsQuote quote) {cs : List Char}
    (plain : ∀ c ∈ cs, isPlain c = true) :
    quotedLength quote (cs ++ [quote]) = (true, (cs ++ [quote]).length) := by
  rw [List.length_append]
  induction cs with
  | nil =>
      have backslash : quote ≠ '\\' := by rcases isQuote with rfl | rfl <;> decide
      rw [List.nil_append, quotedLength_cons backslash, if_pos (beq_self_eq_true quote)]
      rfl
  | cons c cs ih =>
      obtain ⟨here, others⟩ := List.forall_mem_cons.mp plain
      simp only [isPlain, Bool.and_eq_true, bne_iff_ne] at here
      have inside : ¬ (c == quote) = true := by
        rcases isQuote with rfl | rfl
        · simpa using here.1.1
        · simpa using here.1.2
      rw [List.cons_append, quotedLength_cons here.2, if_neg inside, ih others]
      rfl

theorem isPlain_of_isNameChar {c : Char} (name : isNameChar c = true) : isPlain c = true := by
  simp only [isPlain, Bool.and_eq_true, bne_iff_ne]
  refine ⟨⟨?_, ?_⟩, ?_⟩
  all_goals
    rintro rfl
    cases name

theorem isNameChar_of_isNameStart {c : Char} (start : isNameStart c = true) :
    isNameChar c = true := by
  simp only [isNameStart, Bool.or_eq_true] at start
  simp only [isNameChar, Char.isAlphanum, Bool.or_eq_true]
  rcases start with letter | underscore
  · exact .inl (.inl (.inl letter))
  · exact .inl (.inr underscore)

theorem IsName.isPlain (named : IsName n) : ∀ c ∈ n, isPlain c = true := by
  obtain ⟨c, cs, rfl, start, all⟩ := named
  refine List.forall_mem_cons.mpr ⟨isPlain_of_isNameChar (isNameChar_of_isNameStart start), ?_⟩
  exact fun d member => isPlain_of_isNameChar (all d member)

theorem isAlpha_of_isDigit {c : Char} (digit : c.isDigit = true) : c.isAlpha = false := by
  have most : c.val ≤ '9'.val := of_decide_eq_true (Bool.and_eq_true_iff.mp digit).2
  refine Bool.or_eq_false_iff.mpr ⟨?_, ?_⟩
  · refine Bool.eq_false_iff.mpr fun upper => ?_
    have least : 'A'.val ≤ c.val := (of_decide_eq_true upper).1
    exact absurd (UInt32.le_trans least most) (by decide)
  · refine Bool.eq_false_iff.mpr fun lower => ?_
    have least : 'a'.val ≤ c.val := of_decide_eq_true (Bool.and_eq_true_iff.mp lower).1
    exact absurd (UInt32.le_trans least most) (by decide)

theorem classify_digit {c : Char} (digit : c.isDigit = true) (cs : List Char) :
    classify c cs = (.number, numberLength (c :: cs) - 1) := by
  have underscore : (c == '_') = false := by
    refine beq_eq_false_iff_ne.mpr ?_
    rintro rfl
    cases digit
  have start : isNameStart c = false := by rw [isNameStart, isAlpha_of_isDigit digit, underscore]; rfl
  rw [classify, if_neg (by simp [start]), if_pos digit]
  all_goals
    rintro rfl
    cases digit

theorem numberLength_digits {cs : List Char} (filled : cs ≠ [])
    (digits : ∀ c ∈ cs, c.isDigit = true) : numberLength cs = cs.length := by
  have count : digitCount cs = cs.length := by
    rw [digitCount, List.takeWhile_eq_self_iff.mpr digits]
  have positive : cs.length ≠ 0 := by simpa using filled
  rw [numberLength, count]
  simp only
  rw [if_neg positive, List.drop_length]
  simp [fractionLength, exponentLength]

def IsInteger (v : List Char) : Prop :=
  ∃ digits, digits ≠ [] ∧ (∀ c ∈ digits, c.isDigit = true) ∧ (v = digits ∨ v = '-' :: digits)

theorem IsInteger.scan_eq (number : IsInteger v) : scan v = [⟨.number, v⟩] := by
  obtain ⟨digits, filled, all, rfl | rfl⟩ := number
  · obtain ⟨c, cs, rfl⟩ := List.exists_cons_of_ne_nil filled
    have found : classify c cs = (.number, cs.length) := by
      rw [classify_digit (all c (List.mem_cons_self ..)), numberLength_digits filled all,
        List.length_cons, Nat.add_sub_cancel]
    rw [scan_cons found, List.take_length, List.drop_length, scan]
  · have length := numberLength_digits filled all
    have found : classify '-' digits = (.number, digits.length) := by
      rw [classify, length, if_neg (by simpa using filled)]
    rw [scan_cons found, List.take_length, List.drop_length, scan]

/-- A token that neither separates nor is a bracket can be a value. -/
theorem IsValue.of_token {t : Token} (single : scan v = [t]) (known : t.kind ≠ .other)
    (joined : t.separates = false) (flat : t.opens = false ∧ t.closes = false) : IsValue v where
  filled := by
    rintro rfl
    cases single.symm.trans scan.eq_1
  quoted := by
    intro u member
    rw [single, List.mem_singleton] at member
    subst member
    simp [unclosed, Token.is, known]
  nested := by
    rw [single]
    exact level_of_flat (List.forall_mem_singleton.mpr ⟨flat.1, flat.2, joined⟩)
  arrow := by
    intro arrow
    obtain ⟨cs, rfl⟩ := List.head?_eq_some_iff.mp arrow
    have other : scan ('>' :: cs) = ⟨.other, ['>']⟩ :: scan cs := scan_cons rfl
    rw [other] at single
    obtain rfl := (List.cons.inj single).1
    exact known rfl

theorem isValue_quoted {quote : Char} (isQuote : IsQuote quote) {cs : List Char}
    (closed : quotedLength quote cs = (true, cs.length)) : IsValue (quote :: cs) := by
  refine .of_token (scan_quoted isQuote closed) ?_ ?_ ?_
  all_goals rcases isQuote with rfl | rfl
  all_goals simp [quoteKind, separates, isBlank, Token.is, opens, closes]

theorem IsInteger.isValue (number : IsInteger v) : IsValue v :=
  .of_token number.scan_eq nofun rfl ⟨rfl, rfl⟩

theorem IsName.isValue (named : IsName v) : IsValue v :=
  .of_token named.scan_eq nofun rfl ⟨rfl, rfl⟩

end

end Attribute

end Haml
