import Haml.Proofs.Styles.Values
import Mathlib.Data.List.Basic
/-! Pairs of names and values in each style, and the entries that they are read as. -/

namespace Haml

namespace Attribute

/-- The ways to write attributes: hashes in braces with four kinds of keys, and lists in
parentheses. -/
inductive Style where
  | rocket
  | colon
  | quotedRocket
  | quotedColon
  | list
  deriving DecidableEq, Repr

namespace Style

def key : Style → List Char → List Char
  | rocket, n => ':' :: n
  | colon, n | list, n => n
  | quotedRocket, n => '\'' :: (n ++ ['\''])
  | quotedColon, n => '"' :: (n ++ ['"'])

def relation : Style → List Char
  | rocket | quotedRocket => [' ', '=', '>', ' ']
  | colon | quotedColon => [':', ' ']
  | list => ['=']

def separator : Style → List Char
  | list => [' ']
  | rocket | colon | quotedRocket | quotedColon => [',', ' ']

def pair (s : Style) (n v : List Char) : List Char := s.key n ++ s.relation ++ v

def inner (s : Style) (pairs : List (List Char × List Char)) : List Char :=
  List.intercalate s.separator (pairs.map fun p => s.pair p.1 p.2)

def write (s : Style) (pairs : List (List Char × List Char)) : List Char :=
  match s with
  | list => '(' :: (s.inner pairs ++ [')'])
  | rocket | colon | quotedRocket | quotedColon => '{' :: (s.inner pairs ++ ['}'])

def keyToken (s : Style) (n : List Char) : Token :=
  match s with
  | rocket => ⟨.symbol, s.key n⟩
  | colon | list => ⟨.name, s.key n⟩
  | quotedRocket => ⟨.singleQuoted, s.key n⟩
  | quotedColon => ⟨.doubleQuoted, s.key n⟩

def relationTokens : Style → List Token
  | rocket | quotedRocket => [⟨.blank, [' ']⟩, ⟨.rocket, ['=', '>']⟩, ⟨.blank, [' ']⟩]
  | colon | quotedColon => [⟨.colon, [':']⟩, ⟨.blank, [' ']⟩]
  | list => [⟨.equals, ['=']⟩]

def separatorTokens : Style → List Token
  | list => [⟨.blank, [' ']⟩]
  | rocket | colon | quotedRocket | quotedColon => [⟨.comma, [',']⟩, ⟨.blank, [' ']⟩]

def pairTokens (s : Style) (n v : List Char) : List Token :=
  s.keyToken n :: (s.relationTokens ++ Token.scan v)

section

variable (s : Style) {n v : List Char}

open Token

theorem scan_key (named : IsName n) : scan (s.key n) = [s.keyToken n] := by
  cases s with
  | rocket => exact named.scan_symbol
  | colon | list => exact named.scan_eq
  | quotedRocket => exact scan_quoted (.inr rfl) (quotedLength_plain (.inr rfl) named.isPlain)
  | quotedColon => exact scan_quoted (.inl rfl) (quotedLength_plain (.inl rfl) named.isPlain)

/-- A relation and the value after it are no tokens of their key. -/
theorem scan_relation (value : IsValue v) :
    scan (s.relation ++ v) = s.relationTokens ++ scan v := by
  have space := scan_space value.isBlankChar_head
  have rocket : scan (' ' :: '=' :: '>' :: ' ' :: v) =
      [⟨.blank, [' ']⟩, ⟨.rocket, ['=', '>']⟩, ⟨.blank, [' ']⟩] ++ scan v := by
    have arrow : scan ('=' :: '>' :: ' ' :: v) = ⟨.rocket, ['=', '>']⟩ :: scan (' ' :: v) :=
      scan_cons rfl
    have first : scan (' ' :: '=' :: '>' :: ' ' :: v) =
        ⟨.blank, [' ']⟩ :: scan ('=' :: '>' :: ' ' :: v) := scan_space (by rintro c ⟨⟩; rfl)
    rw [first, arrow, space]
    rfl
  have colon : scan (':' :: ' ' :: v) = [⟨.colon, [':']⟩, ⟨.blank, [' ']⟩] ++ scan v := by
    have first : scan (':' :: ' ' :: v) = ⟨.colon, [':']⟩ :: scan (' ' :: v) := scan_cons rfl
    rw [space] at first
    exact first
  cases s with
  | rocket | quotedRocket => exact rocket
  | colon | quotedColon => exact colon
  | list =>
      have found : classify '=' v = (.equals, 0) := by
        rw [classify, if_neg value.arrow]
      exact scan_cons found

theorem scan_pair (named : IsName n) (value : IsValue v) :
    scan (s.pair n v) = s.pairTokens n v := by
  have quoted : Quoted (s.key n) := by
    intro t member
    rw [s.scan_key named, List.mem_singleton] at member
    subst member
    cases s <;> rfl
  have apart : ∀ t ∈ (scan (s.key n)).getLast?, t.isBlank = false := by
    intro t last
    rw [s.scan_key named] at last
    cases last
    cases s <;> rfl
  have split (c : Char) (stop : stops c = true) (rest : List Char)
      (starts : s.relation ++ v = c :: rest) : scan (s.pair n v) = s.pairTokens n v := by
    rw [pair, List.append_assoc, starts, scan_before stop quoted fun _ => apart, s.scan_key named,
      ← starts, s.scan_relation value]
    rfl
  cases s with
  | rocket | quotedRocket => exact split ' ' rfl _ rfl
  | colon | quotedColon => exact split ':' rfl _ rfl
  | list => exact split '=' rfl _ rfl

end

def tokens (s : Style) (pairs : List (List Char × List Char)) : List Token :=
  List.intercalate s.separatorTokens (pairs.map fun p => s.pairTokens p.1 p.2)

section

variable (s : Style) {n v : List Char} {p q : List Char × List Char}
  {pairs : List (List Char × List Char)}

open Token

theorem inner_cons_cons : s.inner (p :: q :: pairs) =
    s.pair p.1 p.2 ++ (s.separator ++ s.inner (q :: pairs)) := by
  rw [inner, List.map_cons, List.map_cons, List.intercalate_cons_cons,
    List.append_assoc]
  rfl

theorem tokens_cons_cons : s.tokens (p :: q :: pairs) =
    s.pairTokens p.1 p.2 ++ (s.separatorTokens ++ s.tokens (q :: pairs)) := by
  rw [tokens, List.map_cons, List.map_cons, List.intercalate_cons_cons, List.append_assoc]
  rfl

theorem tokens_singleton : s.tokens [p] = s.pairTokens p.1 p.2 := List.intercalate_singleton

theorem getLast?_pairTokens (value : IsValue v) :
    ∀ t ∈ (s.pairTokens n v).getLast?, t.isBlank = false := by
  intro t last
  rw [pairTokens, ← List.cons_append, List.getLast?_append_of_ne_nil _ (scan_ne_nil value.filled)]
    at last
  exact value.isBlank_getLast t last

theorem flat_key (n : List Char) : ∀ t ∈ s.keyToken n :: s.relationTokens,
    t.unclosed = false ∧ t.opens = false ∧ t.closes = false ∧ t.is .comma = false := by
  cases s <;> simp [keyToken, relationTokens, unclosed, opens, closes, Token.is]

theorem unclosed_pairTokens (value : IsValue v) : ∀ t ∈ s.pairTokens n v, t.unclosed = false := by
  rw [pairTokens, ← List.cons_append]
  intro t member
  rcases List.mem_append.mp member with key | inside
  · exact (s.flat_key n t key).1
  · exact value.quoted t inside

theorem quoted_pair (named : IsName n) (value : IsValue v) : Quoted (s.pair n v) := by
  rw [Quoted, s.scan_pair named value]
  exact s.unclosed_pairTokens value

theorem level_pairTokens (value : IsValue v) (n : List Char) :
    level (·.is .comma) 0 (s.pairTokens n v) = some 0 := by
  have inside := level_mono (q := (·.is .comma)) value.nested fun t comma => by
    simp [separates, show t.is .comma = true from comma]
  rw [pairTokens, ← List.cons_append, level_append,
    level_of_flat fun t member => (s.flat_key n t member).2]
  exact inside

theorem head_inner (named : IsName p.1) :
    ∀ c ∈ (s.inner (p :: pairs)).head?, isBlankChar c = false := by
  have starts : ∃ c cs, s.key p.1 = c :: cs ∧ isBlankChar c = false := by
    obtain ⟨c, cs, same, start, -⟩ := named
    have visible : isBlankChar c = false := by
      cases blank : isBlankChar c with
      | false => rfl
      | true =>
          simp only [isBlankChar, Bool.or_eq_true, beq_iff_eq] at blank
          rcases blank with ((rfl | rfl) | rfl) | rfl <;> cases start
    cases s with
    | rocket => exact ⟨':', p.1, rfl, rfl⟩
    | colon | list => exact ⟨c, cs, same, visible⟩
    | quotedRocket => exact ⟨'\'', p.1 ++ ['\''], rfl, rfl⟩
    | quotedColon => exact ⟨'"', p.1 ++ ['"'], rfl, rfl⟩
  obtain ⟨c, cs, same, visible⟩ := starts
  have whole : ∃ more, s.inner (p :: pairs) = c :: more := by
    cases pairs with
    | nil =>
        refine ⟨cs ++ (s.relation ++ p.2), ?_⟩
        rw [inner, List.map_singleton, List.intercalate_singleton, pair, same,
          List.append_assoc, List.cons_append]
    | cons q pairs =>
        refine ⟨cs ++ (s.relation ++ p.2) ++ (s.separator ++ s.inner (q :: pairs)), ?_⟩
        simp only [inner_cons_cons, pair, same, List.append_assoc, List.cons_append]
  obtain ⟨more, whole⟩ := whole
  rw [whole]
  rintro d ⟨⟩
  exact visible

theorem scan_separated (named : IsName n) (value : IsValue v) {rest : List Char}
    (visible : ∀ c ∈ rest.head?, isBlankChar c = false) :
    scan (s.pair n v ++ (s.separator ++ rest)) =
      s.pairTokens n v ++ (s.separatorTokens ++ scan rest) := by
  have apart : ∀ t ∈ (scan (s.pair n v)).getLast?, t.isBlank = false := by
    rw [s.scan_pair named value]
    exact s.getLast?_pairTokens value
  have split {c : Char} (stop : stops c = true) (others : List Char) :
      scan (s.pair n v ++ c :: others) = s.pairTokens n v ++ scan (c :: others) := by
    rw [scan_before stop (s.quoted_pair named value) fun _ => apart, s.scan_pair named value]
  have space := scan_space visible
  have comma : scan (',' :: ' ' :: rest) = ⟨.comma, [',']⟩ :: scan (' ' :: rest) := scan_cons rfl
  cases s with
  | rocket | quotedRocket | colon | quotedColon =>
      calc scan (_ ++ ',' :: ' ' :: rest)
          = _ ++ scan (',' :: ' ' :: rest) := split rfl _
        _ = _ ++ ([⟨.comma, [',']⟩, ⟨.blank, [' ']⟩] ++ scan rest) := by
          rw [comma, space]
          rfl
  | list =>
      calc scan (_ ++ ' ' :: rest)
          = _ ++ scan (' ' :: rest) := split rfl _
        _ = _ ++ ([⟨.blank, [' ']⟩] ++ scan rest) := by
          rw [space]
          rfl

/-- Pairs are scanned one by one, and so is what separates them. -/
theorem scan_inner (formed : ∀ p ∈ pairs, IsPair p) : scan (s.inner pairs) = s.tokens pairs := by
  induction pairs with
  | nil =>
      rw [inner, tokens, List.map_nil, List.map_nil, List.intercalate_nil, scan]
      rfl
  | cons p pairs ih =>
      obtain ⟨⟨named, value⟩, others⟩ := List.forall_mem_cons.mp formed
      cases pairs with
      | nil =>
          rw [inner, List.map_singleton, List.intercalate_singleton, tokens_singleton]
          exact s.scan_pair named value
      | cons q pairs =>
          have visible : ∀ c ∈ (s.inner (q :: pairs)).head?, isBlankChar c = false :=
            s.head_inner (others q (List.mem_cons_self ..)).1
          -- A separator ends with white space, so what follows it must not go on with more.
          rw [inner_cons_cons, tokens_cons_cons, ← ih others]
          exact s.scan_separated named value visible

end

end Style

def entries (line : Nat) (pairs : List (List Char × List Char)) :
    Except Error (List AttributeEntry) := do
  let found ← pairs.mapM fun p => valueEntry line (String.ofList p.1) (Token.scan p.2)
  return found.reduceOption

section

variable (line : Nat) {n v : List Char} {p : List Char × List Char}
  {pairs : List (List Char × List Char)}

open Token

theorem entries_cons : entries line (p :: pairs) = do
    let entry ← valueEntry line (String.ofList p.1) (scan p.2)
    return entry.toList ++ (← entries line pairs) := by
  rw [entries, List.mapM_cons]
  cases valueEntry line (String.ofList p.1) (scan p.2) with
  | error e => rfl
  | ok entry =>
      rw [entries]
      cases pairs.mapM fun p => valueEntry line (String.ofList p.1) (scan p.2) with
      | error e => rfl
      | ok others =>
          cases entry with
          | none => rfl
          | some entry => rfl

theorem unescape_plain (plain : ∀ c ∈ n, isPlain c = true) :
    unescape n = .ok (String.ofList n) := by
  have absent : '\\' ∉ n := fun member => by cases plain '\\' member
  rw [unescape, if_neg absent]

theorem withoutQuotes_quoted (quote : Char) (n : List Char) :
    withoutQuotes (quote :: (n ++ [quote])) = n := List.dropLast_concat

theorem trim_rocket (value : IsValue v) :
    trim (⟨.blank, [' ']⟩ :: ⟨.rocket, ['=', '>']⟩ :: ⟨.blank, [' ']⟩ :: scan v) =
      ⟨.rocket, ['=', '>']⟩ :: ⟨.blank, [' ']⟩ :: scan v := by
  have append := List.getLast?_append_of_ne_nil [Token.mk .rocket ['=', '>'], ⟨.blank, [' ']⟩]
    (scan_ne_nil value.filled)
  have last : ∀ t ∈ (Token.mk .rocket ['=', '>'] :: ⟨.blank, [' ']⟩ :: scan v).getLast?,
      t.isBlank = false := fun t member => value.isBlank_getLast t (append ▸ member)
  rw [trim_cons rfl]
  exact trim_eq (by rintro t ⟨⟩; rfl) last

theorem key_pairTokens {s : Style} (hash : s ≠ .list) (named : IsName n) (value : IsValue v) :
    (colonPair? (s.keyToken n) (s.relationTokens ++ scan v)).or
      (rocketPair? (s.keyToken n) (s.relationTokens ++ scan v)) =
      some (.ok (String.ofList n, ⟨.blank, [' ']⟩ :: scan v)) := by
  have unquoted := unescape_plain named.isPlain
  have rocket := trim_rocket value
  cases s with
  | rocket =>
      simp only [Style.relationTokens, List.cons_append, List.nil_append, rocketPair?, rocket]
      rfl
  | colon => rfl
  | quotedRocket =>
      simp only [Style.relationTokens, List.cons_append, List.nil_append, rocketPair?, rocket,
        rocketKey, Style.keyToken, Style.key, withoutQuotes_quoted, unquoted]
      rfl
  | quotedColon =>
      simp only [Style.relationTokens, List.cons_append, List.nil_append, colonPair?, colonKey?,
        Style.keyToken, Style.key, withoutQuotes_quoted, unquoted]
      rfl
  | list => exact absurd rfl hash

/-- A pair in a hash is the entry of its name and value. -/
theorem hashEntry_pair {s : Style} (hash : s ≠ .list) (named : IsName n) (value : IsValue v) :
    hashEntry line (s.pairTokens n v) = valueEntry line (String.ofList n) (scan v) := by
  have key : ∀ t ∈ (s.pairTokens n v).head?, t.isBlank = false := by
    rintro t ⟨⟩
    cases s <;> rfl
  have whole := trim_eq key (s.getLast?_pairTokens value)
  have trimmed : trim (⟨.blank, [' ']⟩ :: scan v) = scan v := by
    rw [trim_cons rfl, trim_eq value.isBlank_head value.isBlank_getLast]
  rw [hashEntry, whole, Style.pairTokens]
  simp only [key_pairTokens hash named value, trimmed]
  cases tokens : scan v with
  | nil => exact absurd tokens (scan_ne_nil value.filled)
  | cons t ts => rfl

theorem hashEntry_blank (part : List Token) :
    hashEntry line (⟨.blank, [' ']⟩ :: part) = hashEntry line part := by
  rw [hashEntry, trim_cons rfl, hashEntry]

theorem mapM_hashEntry_blank (parts : List (List Token)) :
    (parts.modifyHead (⟨.blank, [' ']⟩ :: ·)).mapM (hashEntry line) =
      parts.mapM (hashEntry line) := by
  cases parts with
  | nil => rfl
  | cons part parts => rw [List.modifyHead_cons, List.mapM_cons, List.mapM_cons, hashEntry_blank]

theorem splitCommas_tokens {s : Style} (hash : s ≠ .list) (formed : ∀ p ∈ pairs, IsPair p)
    (filled : pairs ≠ []) : (splitCommas 0 (s.tokens pairs)).mapM (hashEntry line) =
      pairs.mapM fun p => valueEntry line (String.ofList p.1) (scan p.2) := by
  induction pairs with
  | nil => exact absurd rfl filled
  | cons p pairs ih =>
      obtain ⟨⟨named, value⟩, others⟩ := List.forall_mem_cons.mp formed
      have nested := s.level_pairTokens value p.1
      have here := hashEntry_pair line hash named value
      cases pairs with
      | nil =>
          rw [Style.tokens_singleton, splitCommas_of_level_nil nested, List.mapM_cons,
            List.mapM_cons, here]
          rfl
      | cons q pairs =>
          have separators : s.separatorTokens = [⟨.comma, [',']⟩, ⟨.blank, [' ']⟩] := by
            cases s with
            | list => exact absurd rfl hash
            | rocket | colon | quotedRocket | quotedColon => rfl
          have rest : splitCommas 0 (⟨.blank, [' ']⟩ :: s.tokens (q :: pairs)) =
              (splitCommas 0 (s.tokens (q :: pairs))).modifyHead (⟨.blank, [' ']⟩ :: ·) := rfl
          calc (splitCommas 0 (s.tokens (p :: q :: pairs))).mapM (hashEntry line)
              = (s.pairTokens p.1 p.2 ::
                  splitCommas 0 (⟨.blank, [' ']⟩ :: s.tokens (q :: pairs))).mapM
                    (hashEntry line) := by
                rw [Style.tokens_cons_cons, separators]
                exact congrArg (List.mapM (hashEntry line)) (splitCommas_of_level nested rfl _)
            _ = (p :: q :: pairs).mapM fun p => valueEntry line (String.ofList p.1) (scan p.2) := by
                rw [List.mapM_cons, List.mapM_cons, here, rest, mapM_hashEntry_blank,
                  ih others (List.cons_ne_nil q pairs)]

/-- A hash holds the entries of its pairs, whichever keys it has. -/
theorem ofHash_inner {s : Style} (hash : s ≠ .list) (formed : ∀ p ∈ pairs, IsPair p) :
    ofHash line (s.inner pairs) = entries line pairs := by
  rw [ofHash, s.scan_inner formed]
  by_cases filled : pairs = []
  · subst filled
    rfl
  · rw [splitCommas_tokens line hash formed filled]
    rfl

theorem takeValue_of_level {depth : Nat} {ts more : List Token}
    (nested : level isBlank depth ts = some 0) (ends : takeValue 0 more = ([], more)) :
    takeValue depth (ts ++ more) = (ts, more) := by
  induction ts generalizing depth with
  | nil =>
      obtain rfl : depth = 0 := Option.some.inj nested
      exact ends
  | cons t ts ih =>
      rw [List.cons_append, takeValue, kept_of_level nested]
      simp only [Bool.false_eq_true, if_false]
      rw [← depthAfter, ih (level_cons nested).2]

theorem takeValue_separated (ts : List Token) :
    takeValue 0 (⟨.blank, [' ']⟩ :: ts) = ([], ⟨.blank, [' ']⟩ :: ts) := rfl

theorem ofTokens_blank (ts : List Token) :
    ofTokens line (⟨.blank, [' ']⟩ :: ts) = ofTokens line ts := by
  rw [ofTokens]
  rfl

theorem ofTokens_pair (value : IsValue v) {more : List Token}
    (ends : takeValue 0 more = ([], more)) :
    ofTokens line (Style.list.pairTokens n v ++ more) = do
      let entry ← valueEntry line (String.ofList n) (scan v)
      return entry.toList ++ (← ofTokens line more) := by
  have given := scan_ne_nil value.filled
  have found : takeValue 0 ((scan v ++ more).dropWhile isBlank) = (scan v, more) := by
    have visible : (scan v ++ more).dropWhile isBlank = scan v ++ more := by
      obtain ⟨t, ts, same⟩ := List.exists_cons_of_ne_nil given
      have first := value.isBlank_head
      rw [same] at first ⊢
      rw [List.cons_append, List.dropWhile_cons_of_neg (by simp [first t rfl])]
    have nested := level_mono (q := isBlank) value.nested fun t blank => by simp [separates, blank]
    rw [visible, takeValue_of_level nested ends]
  have filled : (scan v).isEmpty = false := List.isEmpty_eq_false_iff.mpr given
  have tokens : Style.list.pairTokens n v ++ more =
      ⟨.name, n⟩ :: ⟨.equals, ['=']⟩ :: (scan v ++ more) := rfl
  have equals : (Token.mk .equals ['='] :: (scan v ++ more)).dropWhile isBlank =
      ⟨.equals, ['=']⟩ :: (scan v ++ more) := rfl
  rw [tokens, ofTokens, if_neg (by simp [isBlank, Token.is]), if_neg (by simp [Token.is])]
  split
  · next absent =>
      rw [equals] at absent
      cases absent
  · next s rest same =>
      rw [equals] at same
      cases same
      have isEquals : (Token.mk .equals ['=']).is .equals = true := rfl
      simp only [isEquals, if_true, found, filled, Bool.false_eq_true, if_false]

/-- A list holds the entries of its pairs. -/
theorem ofList_inner (formed : ∀ p ∈ pairs, IsPair p) :
    ofList line (Style.list.inner pairs) = entries line pairs := by
  rw [ofList, Style.list.scan_inner formed]
  induction pairs with
  | nil =>
      rw [Style.tokens, List.map_nil, List.intercalate_nil, ofTokens]
      rfl
  | cons p pairs ih =>
      obtain ⟨⟨named, value⟩, others⟩ := List.forall_mem_cons.mp formed
      rw [entries_cons, ← ih others]
      cases pairs with
      | nil =>
          have last : takeValue 0 [] = ([], []) := rfl
          have pair := ofTokens_pair line (n := p.1) value last
          rw [List.append_nil] at pair
          rw [Style.tokens_singleton, pair]
          rfl
      | cons q pairs =>
          have pair := ofTokens_pair line (n := p.1) value
            (takeValue_separated (Style.list.tokens (q :: pairs)))
          rw [ofTokens_blank] at pair
          rw [Style.tokens_cons_cons]
          exact pair

end

end Attribute

end Haml
