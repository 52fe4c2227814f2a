import Haml.Attribute.Computed
import Haml.Evaluator.Expressions
import Haml.Proofs.Styles.Pairs
/-! Literals: what a literal says as the value of an attribute is what it says as an expression in
parentheses. -/

namespace Haml

namespace Expr.Token

variable {cs rest : List Char}

theorem scan_symbol {c : Char} {s : Symbol} (visible : isBlank c = false)
    (found : first c rest = (.symbol s, 0)) : scan (c :: rest) = .symbol s :: scan rest := by
  rw [scan, if_neg (by simp [visible]), found]
  rfl

theorem scan_openParen (rest : List Char) :
    scan ('(' :: rest) = .symbol .openParen :: scan rest := by
  refine scan_symbol rfl ?_
  cases rest <;> rfl

theorem scan_minus (rest : List Char) : scan ('-' :: rest) = .symbol .minus :: scan rest := by
  refine scan_symbol rfl ?_
  cases rest <;> rfl

theorem scan_closeParen : scan [')'] = [.symbol .closeParen] := by
  rw [scan_symbol (s := .closeParen) rfl rfl, scan]

theorem scan_closed (c : Char) (cs : List Char) {t : Token} (visible : isBlank c = false)
    (found : first c (cs ++ [')']) = (t, cs.length)) (known : ∀ fault, t ≠ .bad fault) :
    scan (c :: (cs ++ [')'])) = [t, .symbol .closeParen] := by
  rw [scan, if_neg (by simp [visible]), found]
  split
  · next fault _ same => exact absurd (Prod.mk.inj same).1 (known fault)
  · next token n _ same =>
      cases same
      rw [List.drop_left, scan_closeParen]

theorem textLength_plain {quote : Char} (plain : ∀ c ∈ cs, c ≠ quote ∧ c ≠ '\\') :
    textLength quote false (cs ++ quote :: rest) = some cs.length := by
  induction cs with
  | nil => simp [textLength]
  | cons c cs ih =>
      obtain ⟨⟨inside, unescaped⟩, others⟩ := List.forall_mem_cons.mp plain
      simp [textLength, inside, beq_eq_false_iff_ne.mpr unescaped, ih others]

theorem scan_text {quote : Char} (isQuote : Attribute.IsQuote quote)
    (plain : ∀ c ∈ cs, c ≠ quote ∧ c ≠ '\\') :
    scan (quote :: (cs ++ [quote] ++ [')'])) = [.text (String.ofList cs), .symbol .closeParen] := by
  have unescaped : '\\' ∉ cs := fun member => (plain '\\' member).2 rfl
  have symbol2 (d : Char) : symbol2? quote d = none := by rcases isQuote with rfl | rfl <;> rfl
  have symbol1 : symbol1? quote = none := by rcases isQuote with rfl | rfl <;> rfl
  have quotes : (quote == '"' || quote == '\'') = true := by rcases isQuote with rfl | rfl <;> rfl
  have absent : (cs ++ quote :: [')']).head?.bind (symbol2? quote) = none := by
    cases (cs ++ quote :: [')']).head? <;> simp [symbol2]
  refine scan_closed quote (cs ++ [quote]) (by rcases isQuote with rfl | rfl <;> rfl) ?_ nofun
  rw [List.append_assoc, List.singleton_append, first, absent, symbol1, List.length_append]
  simp only [quotes, if_true, textLength_plain plain, List.take_left, textToken, unescaped,
    if_false]
  rfl

theorem numberRun_digits (digits : ∀ c ∈ cs, c.isDigit = true) :
    numberRun false .integer (cs ++ [')']) = (cs, .integer) := by
  induction cs with
  | nil => rfl
  | cons c cs ih =>
      obtain ⟨here, others⟩ := List.forall_mem_cons.mp digits
      have next : NumberState.integer.next? false c = some .integer := by
        rw [NumberState.next?, if_pos here]
        rfl
      rw [List.cons_append, numberRun, next]
      simp only [ih others]

theorem ne_of_isDigit {c : Char} (digit : c.isDigit = true) (d : Char) (other : d.isDigit = false) :
    c ≠ d := by
  rintro rfl
  exact Bool.false_ne_true (other.symm.trans digit)

theorem radixOf_eq_none {c : Char} (plain : c.isDigit = true ∨ c = ')') : radixOf c = none := by
  unfold radixOf
  split
  all_goals
    first
    | rfl
    | rcases plain with digit | same
      · cases digit
      · cases same

theorem isDigitOf_digit {c : Char} (digit : c.isDigit = true) : isDigitOf 10 c = true := by
  have most : c.toNat ≤ 57 := of_decide_eq_true (Bool.and_eq_true_iff.mp digit).2
  simp only [isDigitOf, Text.Quoted.isHexDigit, digit, Decimal.digitValue, if_true, Bool.true_or,
    Bool.true_and, decide_eq_true_eq]
  omega

theorem number_digits (filled : cs ≠ []) (digits : ∀ c ∈ cs, c.isDigit = true)
    (fits : Decimal.fitsUnsigned 128 (Decimal.natOfDigits 10 cs) = true) :
    number (cs ++ [')']) = (.int (Decimal.natOfDigits 10 cs), cs.length) := by
  have radix (r : Char) (more : List Char) (same : cs ++ [')'] = '0' :: r :: more) :
      radixOf r = none := by
    have member : r ∈ cs ++ [')'] := by simp [same]
    refine radixOf_eq_none ?_
    rcases List.mem_append.mp member with inside | last
    · exact .inl (digits r inside)
    · exact .inr (List.mem_singleton.mp last)
  have kept : (cs.filter fun c => !decide (c = '_')) = cs :=
    List.filter_eq_self.mpr fun c member => by
      simpa using ne_of_isDigit (digits c member) '_' rfl
  have last : cs.getLast? ≠ some '_' := fun last =>
    ne_of_isDigit (digits '_' (List.mem_of_getLast? last)) '_' rfl rfl
  have whole : intToken 10 cs = .int (Decimal.natOfDigits 10 cs) := by
    have all : cs.all (isDigitOf 10) = true :=
      List.all_eq_true.mpr fun c member => isDigitOf_digit (digits c member)
    have given : cs.isEmpty = false := List.isEmpty_eq_false_iff.mpr filled
    simp only [intToken, all, given, fits]
    rfl
  rw [number.eq_def]
  split
  · next r more same =>
      rw [radix r more same]
      simp [numberRun_digits digits, kept, last, NumberState.isFloat, whole]
  · simp [numberRun_digits digits, kept, last, NumberState.isFloat, whole]

theorem scan_digits (filled : cs ≠ []) (digits : ∀ c ∈ cs, c.isDigit = true)
    (fits : Decimal.fitsUnsigned 128 (Decimal.natOfDigits 10 cs) = true) :
    scan (cs ++ [')']) = [.int (Decimal.natOfDigits 10 cs), .symbol .closeParen] := by
  obtain ⟨c, cs, rfl⟩ := List.exists_cons_of_ne_nil filled
  have digit := digits c (List.mem_cons_self ..)
  have other := ne_of_isDigit digit
  have symbol2 (d : Char) : symbol2? c d = none := by
    unfold symbol2?
    split
    all_goals first | rfl | cases digit
  have symbol1 : symbol1? c = none := by
    unfold symbol1?
    split
    all_goals first | rfl | cases digit
  have quotes : (c == '"' || c == '\'') = false := by
    simp [other '"' rfl, other '\'' rfl]
  have visible : isBlank c = false := by
    simp [isBlank, other ' ' rfl, other '\t' rfl, other '\n' rfl,
      other '\r' rfl, other '\x0c' rfl]
  have absent : (cs ++ [')']).head?.bind (symbol2? c) = none := by
    cases (cs ++ [')']).head? <;> simp [symbol2]
  have found : first c (cs ++ [')']) = (.int (Decimal.natOfDigits 10 (c :: cs)), cs.length) := by
    have read := number_digits filled digits fits
    rw [List.cons_append] at read
    rw [first, absent, symbol1]
    simp only [quotes, Bool.false_eq_true, if_false, digit, if_true, read, List.length_cons,
      Nat.add_sub_cancel]
  have known (fault : Fault) : Token.int (Decimal.natOfDigits 10 (c :: cs)) ≠ .bad fault := by
    intro same
    cases same
  exact scan_closed c cs visible found known

end Expr.Token

namespace Attribute

open Token

/-- Whether a token is a text in quotes without escapes and markers, a whole number of 64 bits, or
one of the words for yes, no and nothing. -/
inductive IsLiteral : Token → Prop
  | text {quote : Char} {cs : List Char} (isQuote : IsQuote quote)
      (plain : ∀ c ∈ cs, c ≠ quote ∧ c ≠ '\\') (unmarked : ¬ ['#', '{'] <:+: cs) :
      IsLiteral ⟨quoteKind quote, quote :: (cs ++ [quote])⟩
  | integer {cs : List Char} {n : Int} (number : IsInteger cs) (read : readInteger cs = .ok n) :
      IsLiteral ⟨.number, cs⟩
  | yes : IsLiteral ⟨.name, ['t', 'r', 'u', 'e']⟩
  | no : IsLiteral ⟨.name, ['f', 'a', 'l', 's', 'e']⟩
  | nothing : IsLiteral ⟨.name, ['n', 'i', 'l']⟩

def stated (t : Token) : Option AttributeValue :=
  match literal? t with
  | some (.ok (.value value)) => some value
  | _ => none

def parenthesized (t : Token) : List Token :=
  [⟨.opening .paren, ['(']⟩, t, ⟨.closing .paren, [')']⟩]

theorem texts_parenthesized (t : Token) : texts (parenthesized t) = '(' :: (t.text ++ [')']) := by
  simp [texts, parenthesized]

variable {t : Token} {cs : List Char} {n : Int}

theorem literal?_text {quote : Char} (isQuote : IsQuote quote) (unescaped : '\\' ∉ cs) :
    literal? ⟨quoteKind quote, quote :: (cs ++ [quote])⟩ =
      some (.ok (.value (.text (String.ofList cs)))) := by
  have read : unescape cs = .ok (String.ofList cs) := by rw [unescape, if_neg unescaped]
  rcases isQuote with rfl | rfl
  all_goals
    simp only [literal?, quoteKind, withoutQuotes_quoted, read]
    rfl

theorem literal?_integer (number : IsInteger cs) (read : readInteger cs = .ok n) :
    literal? ⟨.number, cs⟩ = some (.ok (.value (.text (toString n)))) := by
  have whole : cs.any (fun c => c == '.' || c == 'e' || c == 'E') = false := by
    have apart (c : Char) (digit : c.isDigit = true) :
        (c == '.' || c == 'e' || c == 'E') = false := by
      have other := Expr.Token.ne_of_isDigit digit
      simp [other '.' rfl, other 'e' rfl, other 'E' rfl]
    obtain ⟨digits, -, all, same⟩ := number
    have plain : digits.any (fun c => c == '.' || c == 'e' || c == 'E') = false :=
      List.any_eq_false.mpr fun c member => by simpa using apart c (all c member)
    rcases same with rfl | rfl
    · exact plain
    · simpa using plain
  simp only [literal?, readNumber, whole, read]
  rfl

/-- A literal is the entry of its value, if it has one. -/
theorem IsLiteral.tokenEntry_eq (literal : IsLiteral t) (line : Nat) (name : String) :
    tokenEntry line name t = .ok ((stated t).map (.fixed name)) := by
  cases literal with
  | text isQuote plain unmarked =>
      next quote cs =>
      have unescaped : '\\' ∉ cs := fun member => (plain '\\' member).2 rfl
      have single : Interpolation.isMarked cs = false :=
        Bool.eq_false_iff.mpr fun marked => unmarked (Interpolation.infix_of_isMarked marked)
      simp only [tokenEntry, stated, withoutQuotes_quoted, single, Bool.and_false,
        literal?_text isQuote unescaped]
      rfl
  | integer number read =>
      simp only [tokenEntry, stated, literal?_integer number read]
      rfl
  | yes | no | nothing => rfl

def code (t : Token) : String := String.ofList (texts (parenthesized t))

theorem parse_code {ts : List Expr.Token} {e : Expr}
    (tokens : Expr.Token.scan (t.text ++ [')']) = ts)
    (read : Expr.Parser.expression (.symbol .openParen :: ts) = .ok (e, [])) :
    Expr.parse (code t) = .ok e := by
  rw [Expr.parse, code, String.toList_ofList, texts_parenthesized, Expr.Token.scan_openParen,
    tokens, read]
  rfl

/-- A whole number of 64 bits is its digits with their sign, which fit 128 bits. -/
theorem readInteger_eq {digits : List Char} {negative : Bool}
    (sign : Decimal.takeSign cs = (negative, digits)) (read : readInteger cs = .ok n) :
    n = (if negative then -(Decimal.natOfDigits 10 digits : Int)
      else Decimal.natOfDigits 10 digits) ∧
      Decimal.fitsUnsigned 128 (Decimal.natOfDigits 10 digits) = true ∧ Value.isSmall n = true := by
  have fits : Decimal.fitsSigned 64 n = true ∧
      n = (if negative then -(Decimal.natOfDigits 10 digits : Int)
        else Decimal.natOfDigits 10 digits) := by
    simp only [readInteger, sign] at read
    generalize (if negative then -(Decimal.natOfDigits 10 digits : Int)
      else Decimal.natOfDigits 10 digits) = m at read ⊢
    cases fits : Decimal.fitsSigned 64 m with
    | true =>
        rw [fits, if_pos rfl] at read
        cases read
        exact ⟨fits, rfl⟩
    | false =>
        rw [fits] at read
        cases negative <;> cases read
  obtain ⟨fits, value⟩ := fits
  have least : Decimal.powTwo 63 = 9223372036854775808 := rfl
  have small : Decimal.powTwo 127 = 170141183460469231731687303715884105728 := rfl
  have most : Decimal.powTwo 128 = 340282366920938463463374607431768211456 := rfl
  simp only [Decimal.fitsSigned, Nat.add_one_sub_one, least, Bool.and_eq_true, decide_eq_true_eq,
    Int.ofNat_eq_natCast] at fits
  refine ⟨value, ?_, ?_⟩
  · simp only [Decimal.fitsUnsigned, most, Bool.and_eq_true, decide_eq_true_eq,
      Int.ofNat_eq_natCast]
    cases negative
    · simp at value
      omega
    · simp at value
      omega
  · simp only [Value.isSmall, Decimal.fitsSigned, Nat.add_one_sub_one, small, Bool.and_eq_true,
      decide_eq_true_eq, Int.ofNat_eq_natCast]
    omega

theorem takeSign_digits (digits : ∀ c ∈ cs, c.isDigit = true) :
    Decimal.takeSign cs = (false, cs) := by
  unfold Decimal.takeSign
  split
  · cases digits '-' (List.mem_cons_self ..)
  · cases digits '+' (List.mem_cons_self ..)
  · rfl

theorem ofValue?_of_isAbsent {v : Value} (absent : v.isAbsent = true) (name : String) :
    ofValue? name v = none := by
  cases v with
  | undefined | null => rfl
  | _ => cases absent

/-- Whether an expression says this of every attribute, where no variable takes the word for
nothing. -/
def Yields (e : Expr) (value : Option AttributeValue) : Prop :=
  ∀ env : Expr.Env, (∀ v ∈ env.bindings.find? "nil", v.isAbsent = true) →
    ∃ v, Expr.eval env e = .ok v ∧ ∀ name, ofValue? name v = value

theorem yields_text (s : String) : Yields (.text s) (some (.text s)) := fun _ _ =>
  ⟨.ofString s, by rw [Expr.eval], fun _ => rfl⟩

theorem yields_int (n : Int) : Yields (.int n) (some (.text (toString n))) := fun _ _ =>
  ⟨.int n, by rw [Expr.eval], fun _ => rfl⟩

theorem yields_neg (small : Value.isSmall (-n) = true) :
    Yields (.neg (.int n)) (some (.text (toString (-n)))) := by
  refine fun _ _ => ⟨.int (-n), ?_, fun _ => rfl⟩
  rw [Expr.eval, Expr.eval]
  exact if_pos small

theorem yields_bool (b : Bool) : Yields (.bool b) (some (.flag b)) := fun _ _ =>
  ⟨.bool b, by rw [Expr.eval], fun _ => rfl⟩

theorem yields_nil : Yields (.var "nil") none := by
  refine fun env absent => ⟨(env.lookup? "nil").getD .undefined, by rw [Expr.eval], ?_⟩
  refine ofValue?_of_isAbsent ?_
  have global : env.global? "nil" = some .null := rfl
  rw [Expr.Env.lookup?, global]
  cases found : env.bindings.find? "nil" with
  | none => rfl
  | some v => exact absent v found

/-- A literal in parentheses is an expression that says of an attribute what the literal does. -/
theorem IsLiteral.yields (literal : IsLiteral t) :
    ∃ e, Expr.parse (code t) = .ok e ∧ Yields e (stated t) := by
  -- One token in parentheses is parsed by running the grammar, whatever the text or number is.
  cases literal with
  | text isQuote plain unmarked =>
      next quote cs =>
      have unescaped : '\\' ∉ cs := fun member => (plain '\\' member).2 rfl
      have tokens := Expr.Token.scan_text isQuote plain
      refine ⟨.text (String.ofList cs), parse_code tokens rfl, ?_⟩
      rw [stated, literal?_text isQuote unescaped]
      exact yields_text _
  | integer number read =>
      rw [stated, literal?_integer number read]
      obtain ⟨digits, filled, all, rfl | rfl⟩ := number
      · obtain ⟨rfl, fits, -⟩ := readInteger_eq (takeSign_digits all) read
        have tokens := Expr.Token.scan_digits filled all fits
        exact ⟨.int _, parse_code tokens rfl, yields_int _⟩
      · obtain ⟨rfl, fits, small⟩ := readInteger_eq rfl read
        have tokens : Expr.Token.scan ('-' :: digits ++ [')']) =
            [.symbol .minus, .int (Decimal.natOfDigits 10 digits), .symbol .closeParen] := by
          rw [List.cons_append, Expr.Token.scan_minus, Expr.Token.scan_digits filled all fits]
        exact ⟨.neg (.int _), parse_code tokens rfl, yields_neg small⟩
  | yes =>
      have tokens := Expr.Token.scan_closed 't' ['r', 'u', 'e'] rfl rfl nofun
      exact ⟨.bool true, parse_code tokens rfl, yields_bool true⟩
  | no =>
      have tokens := Expr.Token.scan_closed 'f' ['a', 'l', 's', 'e'] rfl rfl nofun
      exact ⟨.bool false, parse_code tokens rfl, yields_bool false⟩
  | nothing =>
      have tokens := Expr.Token.scan_closed 'n' ['i', 'l'] rfl rfl nofun
      exact ⟨.var "nil", parse_code tokens rfl, yields_nil⟩

end Attribute

end Haml
