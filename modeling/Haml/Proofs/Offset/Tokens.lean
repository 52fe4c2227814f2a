import Haml.Attribute.Token
import Haml.Proofs.Offset.Slice
import Haml.Proofs.Scanning
import Mathlib.Data.List.DropRight
/-! Tokens by offsets: each is known by the place that it takes in its source. -/

namespace Haml

namespace Attribute.Token

/-- The texts that the kinds of tokens are cut from: a bracket takes one byte, a quoted text stands
between two quotes, and a symbol starts with a colon. -/
def Shaped (t : Token) : Prop :=
  match t.kind with
  | .opening _ | .closing _ => Offset.byteLength t.text = 1
  | .doubleQuoted => ∃ inner, t.text = '"' :: (inner ++ ['"'])
  | .singleQuoted => ∃ inner, t.text = '\'' :: (inner ++ ['\''])
  | .symbol => ∃ name, t.text = ':' :: name
  | _ => True

theorem exists_of_quotedLength {quote : Char} {cs : List Char} {n : Nat}
    (closed : quotedLength quote cs = (true, n)) : ∃ inner, cs.take n = inner ++ [quote] := by
  fun_induction quotedLength quote cs generalizing n with
  | case1 => cases closed
  | case2 => cases closed
  | case3 c cs escaped ended m found ih =>
      cases closed
      obtain ⟨inner, whole⟩ := ih found
      exact ⟨'\\' :: c :: inner, by rw [List.take_succ_cons, List.take_succ_cons, whole]; rfl⟩
  | case4 c cs _ here =>
      cases closed
      rw [eq_of_beq here]
      exact ⟨[], rfl⟩
  | case5 => cases closed
  | case6 c cs _ inside plain ended m found ih =>
      cases closed
      obtain ⟨inner, whole⟩ := ih found
      exact ⟨c :: inner, by rw [List.take_succ_cons, whole]; rfl⟩

theorem shaped_classify (c : Char) (cs : List Char) :
    Shaped ⟨(classify c cs).1, c :: cs.take (classify c cs).2⟩ := by
  fun_cases classify c cs with
  | case1 | case2 | case3 | case4 | case5 | case6 => rfl
  | case11 => exact ⟨_, rfl⟩
  | case12 ended n found =>
      cases ended with
      | false => exact trivial
      | true =>
          obtain ⟨inner, whole⟩ := exists_of_quotedLength found
          exact ⟨inner, congrArg ('"' :: ·) whole⟩
  | case13 ended n found =>
      cases ended with
      | false => exact trivial
      | true =>
          obtain ⟨inner, whole⟩ := exists_of_quotedLength found
          exact ⟨inner, congrArg ('\'' :: ·) whole⟩
  | _ => exact trivial

theorem shaped_scan (cs : List Char) : ∀ t ∈ scan cs, t.Shaped := by
  fun_induction scan cs with
  | case1 =>
      intro t member
      cases member
  | case2 c cs kind n found ih =>
      have first := shaped_classify c cs
      rw [found] at first
      exact List.forall_mem_cons.mpr ⟨first, ih⟩

end Attribute.Token

namespace Offset

open Attribute

/-- The kind of a token and the offsets of its text. -/
structure Spanned where
  kind : TokenKind
  start : Nat
  stop : Nat

namespace Spanned

def is (s : Spanned) (kind : TokenKind) : Bool := s.kind == kind

def isBlank (s : Spanned) : Bool := s.is .blank

def opens (s : Spanned) : Bool :=
  match s.kind with
  | .opening _ => true
  | _ => false

def closes (s : Spanned) : Bool :=
  match s.kind with
  | .closing _ => true
  | _ => false

def text (source : List Char) (s : Spanned) : Option (List Char) := cut source s.start s.stop

end Spanned

def spansFrom (offset : Nat) : List Token → List Spanned
  | [] => []
  | t :: ts =>
      ⟨t.kind, offset, offset + byteLength t.text⟩ :: spansFrom (offset + byteLength t.text) ts

def tokenize (source : List Char) : List Spanned := spansFrom 0 (Token.scan source)

def closingBracket (depth : Nat) : List Spanned → Option Nat
  | [] => none
  | s :: rest =>
      if s.opens then closingBracket (depth + 1) rest
      else if s.closes then
        if depth = 0 then none
        else if depth = 1 then some s.start
        else closingBracket (depth - 1) rest
      else closingBracket depth rest

def findClosing (source : List Char) : Option Nat := closingBracket 0 (tokenize source)

/-- The ranges of `tokens` between commas outside all brackets, `index` being that of the tokens
still to come and `start` that of the first in the range. -/
def splitCommasFrom (tokens : List Spanned) (depth start index : Nat) :
    List Spanned → Option (List (List Spanned))
  | [] => do
      let last ← rangeFrom tokens start
      return [last]
  | s :: rest =>
      if s.opens then splitCommasFrom tokens (depth + 1) start (index + 1) rest
      else if s.closes then splitCommasFrom tokens (depth - 1) start (index + 1) rest
      else if s.is .comma && depth = 0 then do
        let part ← range tokens start index
        let parts ← splitCommasFrom tokens depth (index + 1) (index + 1) rest
        return part :: parts
      else splitCommasFrom tokens depth start (index + 1) rest

def splitCommas (tokens : List Spanned) : Option (List (List Spanned)) :=
  splitCommasFrom tokens 0 0 0 tokens

def trimBounds {α : Type} (p : α → Bool) (xs : List α) : Nat × Nat :=
  let start := xs.findIdx fun x => !p x
  match xs.reverse.findIdx? fun x => !p x with
  | some index => (start, xs.length - index)
  | none => (start, start)

def trim (tokens : List Spanned) : Option (List Spanned) :=
  range tokens (trimBounds Spanned.isBlank tokens).1 (trimBounds Spanned.isBlank tokens).2

def slice (source : List Char) (tokens : List Spanned) : Option (List Char) :=
  match tokens.head?, tokens.getLast? with
  | some first, some last => cut source first.start last.stop
  | _, _ => some []

section Trimming

variable {α β : Type} {p : α → Bool} {xs : List α}

theorem trimBounds_map (f : β → α) (ys : List β) :
    trimBounds p (ys.map f) = trimBounds (p ∘ f) ys := by
  rw [trimBounds, trimBounds, List.findIdx_map, ← List.map_reverse, List.findIdx?_map,
    List.length_map]
  rfl

theorem trimBounds_of_all (all : ∀ x ∈ xs, p x = true) :
    trimBounds p xs = (xs.length, xs.length) := by
  have first : xs.findIdx (fun x => !p x) = xs.length := by
    rw [List.findIdx_eq_length]
    intro x member
    rw [all x member, Bool.not_true]
  have last : xs.reverse.findIdx? (fun x => !p x) = none := by
    rw [List.findIdx?_eq_none_iff]
    intro x member
    rw [all x (List.mem_reverse.mp member), Bool.not_true]
  rw [trimBounds, first, last]

theorem trimBounds_of_shown {before inner after : List α} {first last : α} {front back : List α}
    (blankBefore : ∀ x ∈ before, p x = true) (blankAfter : ∀ x ∈ after, p x = true)
    (starts : inner = first :: back) (ends : inner = front ++ [last])
    (shownFirst : p first = false) (shownLast : p last = false) :
    trimBounds p (before ++ (inner ++ after)) =
      (before.length, before.length + inner.length) := by
  have start : (before ++ (inner ++ after)).findIdx (fun x => !p x) = before.length := by
    have found := findIdx?_of_all blankBefore shownFirst (back ++ after)
    rw [← List.cons_append, ← starts] at found
    exact (List.findIdx?_eq_some_iff_findIdx_eq.mp found).2
  have stop : (before ++ (inner ++ after)).reverse.findIdx? (fun x => !p x) =
      some after.length := by
    have blank : ∀ x ∈ after.reverse, p x = true := by
      intro x member
      exact blankAfter x (List.mem_reverse.mp member)
    have found := findIdx?_of_all blank shownLast (front.reverse ++ before.reverse)
    rw [List.length_reverse] at found
    rw [← found, ends]
    simp
  have length : (before ++ (inner ++ after)).length - after.length =
      before.length + inner.length := by
    rw [List.length_append, List.length_append]
    omega
  rw [trimBounds, start, stop]
  simp only [length]

theorem exists_trimBounds (p : α → Bool) (xs : List α) : ∃ before after,
    xs = before ++ ((xs.dropWhile p).rdropWhile p ++ after) ∧
      trimBounds p xs =
        (before.length, before.length + ((xs.dropWhile p).rdropWhile p).length) := by
  cases shown : xs.dropWhile p with
  | nil =>
      refine ⟨xs, [], by simp, ?_⟩
      rw [trimBounds_of_all (List.dropWhile_eq_nil_iff.mp shown)]
      simp
  | cons first rest =>
      have shownFirst : p first = false := by
        have head := List.head?_dropWhile_not p xs
        simpa [shown] using head
      have inner : (first :: rest).rdropWhile p ≠ [] := by
        intro absent
        rw [List.rdropWhile_eq_nil_iff] at absent
        have blank := absent first List.mem_cons_self
        rw [shownFirst] at blank
        cases blank
      have shownLast : p (((first :: rest).rdropWhile p).getLast inner) = false :=
        Bool.eq_false_iff.mpr (List.rdropWhile_last_not p (first :: rest) inner)
      obtain ⟨back, starts⟩ : ∃ back, (first :: rest).rdropWhile p = first :: back := by
        have part := List.rdropWhile_prefix p (l := first :: rest)
        cases found : (first :: rest).rdropWhile p with
        | nil => exact absurd found inner
        | cons other back =>
            rw [found] at part
            rw [(List.cons_prefix_cons.mp part).1]
            exact ⟨back, rfl⟩
      have whole : xs =
          xs.takeWhile p ++ ((first :: rest).rdropWhile p ++ (first :: rest).rtakeWhile p) := by
        rw [List.rdropWhile_append_rtakeWhile, ← shown, List.takeWhile_append_dropWhile]
      refine ⟨xs.takeWhile p, (first :: rest).rtakeWhile p, whole, ?_⟩
      have before : ∀ x ∈ xs.takeWhile p, p x = true := by
        intro x
        exact List.mem_takeWhile_imp
      have after : ∀ x ∈ (first :: rest).rtakeWhile p, p x = true := by
        intro x
        exact List.mem_rtakeWhile_imp
      have bounds := trimBounds_of_shown before after starts
        (List.dropLast_append_getLast inner).symm shownFirst shownLast
      rw [← whole] at bounds
      exact bounds

end Trimming

theorem is_eq {s : Spanned} {t : Token} (same : s.kind = t.kind) (kind : TokenKind) :
    s.is kind = t.is kind := by
  rw [Spanned.is, same, Token.is]

theorem isBlank_eq {s : Spanned} {t : Token} (same : s.kind = t.kind) : s.isBlank = t.isBlank :=
  is_eq same .blank

section Covered

variable {source : List Char} {spans : List Spanned} {ts us xs ys zs : List Token} {t : Token}
  {offset : Nat}

theorem texts_append (ts us : List Token) :
    Token.texts (ts ++ us) = Token.texts ts ++ Token.texts us :=
  List.flatMap_append

theorem texts_cons (t : Token) (ts : List Token) :
    Token.texts (t :: ts) = t.text ++ Token.texts ts :=
  List.flatMap_cons

@[simp] theorem length_spansFrom (offset : Nat) (ts : List Token) :
    (spansFrom offset ts).length = ts.length := by
  induction ts generalizing offset with
  | nil => rfl
  | cons t ts ih => rw [spansFrom, List.length_cons, ih, List.length_cons]

theorem spansFrom_append (offset : Nat) (ts us : List Token) :
    spansFrom offset (ts ++ us) =
      spansFrom offset ts ++ spansFrom (offset + byteLength (Token.texts ts)) us := by
  induction ts generalizing offset with
  | nil => rfl
  | cons t ts ih =>
      rw [List.cons_append, spansFrom, ih, spansFrom, texts_cons, byteLength_append, Nat.add_assoc]
      rfl

theorem kinds_spansFrom (offset : Nat) (ts : List Token) :
    (spansFrom offset ts).map Spanned.kind = ts.map Token.kind := by
  induction ts generalizing offset with
  | nil => rfl
  | cons t ts ih => rw [spansFrom, List.map_cons, ih, List.map_cons]

theorem stop_spansFrom (offset : Nat) (ts : List Token) (t : Token) :
    ((spansFrom offset (ts ++ [t])).getLast?.map Spanned.stop) =
      some (offset + byteLength (Token.texts (ts ++ [t]))) := by
  rw [spansFrom_append, texts_append]
  simp [spansFrom, Token.texts, Nat.add_assoc]

theorem modifyHead_nil_append (runs : List (List Token)) : runs.modifyHead ([] ++ ·) = runs := by
  cases runs with
  | nil => rfl
  | cons run runs => rfl

/-- Whether places in a source are those of tokens that follow one another there. -/
structure Covers (source : List Char) (spans : List Spanned) (tokens : List Token) : Prop where
  shaped : ∀ t ∈ tokens, t.Shaped
  placed : ∃ before after, source = before ++ (Token.texts tokens ++ after) ∧
    spans = spansFrom (byteLength before) tokens

theorem covers_tokenize (source : List Char) :
    Covers source (tokenize source) (Token.scan source) := by
  refine ⟨Token.shaped_scan source, [], [], ?_, rfl⟩
  rw [Token.texts_scan, List.nil_append, List.append_nil]

namespace Covers

theorem length_eq (covers : Covers source spans ts) : spans.length = ts.length := by
  obtain ⟨before, after, -, rfl⟩ := covers.placed
  exact length_spansFrom _ ts

theorem kinds (covers : Covers source spans ts) :
    spans.map Spanned.kind = ts.map Token.kind := by
  obtain ⟨before, after, -, rfl⟩ := covers.placed
  exact kinds_spansFrom _ ts

theorem middle (covers : Covers source spans (xs ++ (ys ++ zs))) : ∃ first inner last,
    spans = first ++ (inner ++ last) ∧ first.length = xs.length ∧ inner.length = ys.length ∧
      Covers source inner ys := by
  obtain ⟨before, after, whole, rfl⟩ := covers.placed
  rw [spansFrom_append, spansFrom_append]
  refine ⟨_, _, _, rfl, length_spansFrom _ xs, length_spansFrom _ ys, ?_, before ++ Token.texts xs,
    Token.texts zs ++ after, ?_, ?_⟩
  · intro t member
    apply covers.shaped
    simp [member]
  · rw [whole, texts_append, texts_append]
    simp
  · rw [byteLength_append]

theorem range_eq {start stop : Nat} (covers : Covers source spans (xs ++ (ys ++ zs)))
    (first : start = xs.length) (last : stop = xs.length + ys.length) :
    ∃ inner, range spans start stop = some inner ∧ Covers source inner ys := by
  obtain ⟨before, inner, after, rfl, lengthBefore, lengthInner, covers⟩ := covers.middle
  refine ⟨inner, Offset.range_eq _ _ rfl ?_ ?_, covers⟩
  · rw [first, lengthBefore]
  · rw [last, lengthBefore, lengthInner]

theorem rangeFrom_eq (xs ys : List Token) {start : Nat} (covers : Covers source spans (xs ++ ys))
    (first : start = xs.length) :
    ∃ inner, rangeFrom spans start = some inner ∧ Covers source inner ys := by
  have length := covers.length_eq
  rw [← List.append_nil ys] at covers
  apply covers.range_eq first
  rw [length, List.length_append]

theorem of_nil (covers : Covers source spans []) : spans = [] := by
  obtain ⟨before, after, -, rfl⟩ := covers.placed
  rfl

theorem isEmpty_eq (covers : Covers source spans ts) : spans.isEmpty = ts.isEmpty := by
  have length := covers.length_eq
  cases spans <;> cases ts <;> simp_all

theorem exists_drop {index : Nat} (covers : Covers source spans (xs ++ ys))
    (here : index = xs.length) : ∃ offset, spans.drop index = spansFrom offset ys := by
  obtain ⟨before, after, -, rfl⟩ := covers.placed
  refine ⟨byteLength before + byteLength (Token.texts xs), ?_⟩
  rw [spansFrom_append, here, ← length_spansFrom (byteLength before) xs, List.drop_left]

theorem cons (covers : Covers source spans (t :: ts)) : ∃ s rest, spans = s :: rest ∧
    s.kind = t.kind ∧ s.text source = some t.text ∧ Covers source [s] [t] ∧
      Covers source rest ts := by
  obtain ⟨before, after, whole, rfl⟩ := covers.placed
  obtain ⟨shaped, others⟩ := List.forall_mem_cons.mp covers.shaped
  rw [texts_cons, List.append_assoc] at whole
  refine ⟨_, _, rfl, rfl, cut_eq _ _ whole rfl rfl, ⟨?_, before, Token.texts ts ++ after, ?_, rfl⟩,
    ⟨others, before ++ t.text, after, ?_, ?_⟩⟩
  · intro u member
    rw [List.mem_singleton.mp member]
    exact shaped
  · simpa [Token.texts] using whole
  · rw [whole, List.append_assoc]
  · rw [byteLength_append]

theorem item_eq {index : Nat} (covers : Covers source spans (xs ++ t :: ys))
    (here : index = xs.length) : ∃ s, item spans index = some s ∧ s.kind = t.kind ∧
      s.text source = some t.text := by
  have parts : Covers source spans (xs ++ ([t] ++ ys)) := covers
  obtain ⟨before, inner, after, rfl, length, -, covered⟩ := parts.middle
  obtain ⟨s, rest, rfl, kind, text, -, others⟩ := covered.cons
  rw [others.of_nil]
  exact ⟨s, Offset.item_eq _ _ rfl (here.trans length.symm), kind, text⟩

theorem symbolName {s : Spanned} {rest : List Spanned}
    (covers : Covers source (s :: rest) (t :: ts)) (symbol : t.kind = .symbol) :
    Covers source (⟨.name, s.start + 1, s.stop⟩ :: rest) (⟨.name, t.text.tail⟩ :: ts) := by
  obtain ⟨before, after, whole, spans⟩ := covers.placed
  obtain ⟨shaped, others⟩ := List.forall_mem_cons.mp covers.shaped
  have colon : ':'.utf8Size = 1 := rfl
  simp only [Token.Shaped, symbol] at shaped
  obtain ⟨name, text⟩ := shaped
  cases spans
  refine ⟨List.forall_mem_cons.mpr ⟨trivial, others⟩, before ++ [':'], after, ?_, ?_⟩
  · rw [whole, texts_cons, texts_cons, text]
    simp
  · simp [spansFrom, text, colon, Nat.add_assoc]

theorem trim (covers : Covers source spans ts) :
    ∃ inner, Offset.trim spans = some inner ∧ Covers source inner (Token.trim ts) := by
  obtain ⟨before, after, whole, bounds⟩ := exists_trimBounds Token.isBlank ts
  have same : trimBounds Spanned.isBlank spans = trimBounds Token.isBlank ts := by
    have kinds := congrArg (trimBounds (· == TokenKind.blank)) covers.kinds
    rw [trimBounds_map, trimBounds_map] at kinds
    exact kinds
  rw [Offset.trim, same, bounds]
  rw [whole] at covers
  exact covers.range_eq rfl rfl

theorem slice (covers : Covers source spans ts) :
    Offset.slice source spans = some (Token.texts ts) := by
  obtain ⟨before, after, whole, rfl⟩ := covers.placed
  cases ts with
  | nil => rfl
  | cons t ts =>
      have last : ∃ s, (spansFrom (byteLength before) (t :: ts)).getLast? = some s ∧
          s.stop = byteLength before + byteLength (Token.texts (t :: ts)) := by
        rw [← Option.map_eq_some_iff, ← List.dropLast_append_getLast (List.cons_ne_nil t ts)]
        exact stop_spansFrom _ _ _
      obtain ⟨s, found, stop⟩ := last
      rw [Offset.slice, found]
      exact cut_eq _ _ whole rfl stop

theorem splitCommasFrom_cons {depth start index : Nat} (spans places : List Spanned)
    (inside : ¬ (t.is .comma && decide (depth = 0)) = true) :
    Offset.splitCommasFrom spans depth start index
        (⟨t.kind, offset, offset + byteLength t.text⟩ :: places) =
      Offset.splitCommasFrom spans (t.depthAfter depth) start (index + 1) places := by
  have opens : Spanned.opens ⟨t.kind, offset, offset + byteLength t.text⟩ = t.opens := rfl
  have closes : Spanned.closes ⟨t.kind, offset, offset + byteLength t.text⟩ = t.closes := rfl
  have comma : Spanned.is ⟨t.kind, offset, offset + byteLength t.text⟩ .comma = t.is .comma := rfl
  rw [Offset.splitCommasFrom, opens, closes, comma, if_neg inside, Token.depthAfter]
  split
  · rfl
  · split <;> rfl

/-- The places of the runs between commas. The tokens of the run that is not ended yet are those
between `done` and `rest`. -/
theorem splitCommasFrom {done run rest : List Token} {start index : Nat} (depth offset : Nat)
    (covers : Covers source spans (done ++ (run ++ rest))) (first : start = done.length)
    (next : index = done.length + run.length) :
    ∃ parts, Offset.splitCommasFrom spans depth start index (spansFrom offset rest) = some parts ∧
      List.Forall₂ (Covers source) parts
        ((Token.splitCommas depth rest).modifyHead (run ++ ·)) := by
  induction rest generalizing done run start index depth offset with
  | nil =>
      obtain ⟨last, found, covered⟩ := covers.rangeFrom_eq _ _ first
      refine ⟨[last], ?_, .cons covered .nil⟩
      rw [spansFrom, Offset.splitCommasFrom, found]
      rfl
  | cons t rest ih =>
      have longer : index + 1 = done.length + (run ++ [t]).length := by
        rw [next, List.length_append, List.length_singleton, Nat.add_assoc]
      have regrouped : done ++ (run ++ t :: rest) = done ++ ((run ++ [t]) ++ rest) := by simp
      by_cases comma : (t.is .comma && decide (depth = 0)) = true
      · obtain ⟨part, found, covered⟩ := covers.range_eq first next
        have later : done ++ (run ++ t :: rest) = (done ++ run ++ [t]) ++ ([] ++ rest) := by simp
        rw [later] at covers
        have start' : index + 1 = (done ++ run ++ [t]).length := by
          rw [longer]
          simp
        obtain ⟨parts, others, all⟩ :=
          ih 0 (offset + byteLength t.text) covers start' start'
        simp only [Bool.and_eq_true, decide_eq_true_eq] at comma
        obtain ⟨kind, rfl⟩ := comma
        refine ⟨part :: parts, ?_, ?_⟩
        · rw [spansFrom, eq_of_beq kind, Offset.splitCommasFrom, found]
          simp [Spanned.opens, Spanned.closes, Spanned.is, others]
        · rw [modifyHead_nil_append] at all
          rw [Token.splitCommas, kind]
          simpa using ⟨covered, all⟩
      · obtain ⟨parts, found, all⟩ := ih (t.depthAfter depth) _ (regrouped ▸ covers) first longer
        refine ⟨parts, ?_, ?_⟩
        · rw [spansFrom, splitCommasFrom_cons _ _ comma, found]
        · rw [Token.splitCommas, if_neg comma, ← Token.depthAfter, List.modifyHead_modifyHead]
          simpa [Function.comp_def] using all

theorem splitCommas (covers : Covers source spans ts) :
    ∃ parts, Offset.splitCommas spans = some parts ∧
      List.Forall₂ (Covers source) parts (Token.splitCommas 0 ts) := by
  obtain ⟨before, after, -, spansEq⟩ := covers.placed
  have whole : ts = [] ++ ([] ++ ts) := rfl
  rw [whole] at covers
  obtain ⟨parts, found, all⟩ := covers.splitCommasFrom 0 (byteLength before) rfl rfl
  rw [← spansEq] at found
  rw [modifyHead_nil_append] at all
  exact ⟨parts, found, all⟩

end Covers

end Covered

section Brackets

theorem closingBracket_eq (depth offset : Nat) (ts : List Token) :
    closingBracket (depth + 1) (spansFrom offset ts) =
      (Token.closing (depth + 1) ts).map fun p => offset + byteLength (Token.texts p.1) := by
  induction ts generalizing depth offset with
  | nil => rfl
  | cons t ts ih =>
      obtain ⟨kind, text⟩ := t
      have regroup (inner : List Token) :
          offset + byteLength (Token.texts (⟨kind, text⟩ :: inner)) =
            offset + byteLength text + byteLength (Token.texts inner) := by
        rw [texts_cons, byteLength_append, Nat.add_assoc]
      rw [spansFrom, closingBracket, Token.closing]
      cases kind with
      | opening bracket =>
          simp [Spanned.opens, Token.opens, Token.closes, ih, Function.comp_def, regroup]
      | closing bracket =>
          cases depth with
          | zero => simp [Spanned.opens, Spanned.closes, Token.closes, Token.texts]
          | succ depth =>
              simp [Spanned.opens, Spanned.closes, Token.opens, Token.closes, ih, Function.comp_def,
                regroup]
      | _ =>
          simp [Spanned.opens, Spanned.closes, Token.opens, Token.closes, ih, Function.comp_def,
            regroup]

variable {c : Char} {cs inner after : List Char} {bracket : Bracket}

theorem bracketed_cons (opens : Token.classify c cs = (.opening bracket, 0)) :
    Token.bracketed (c :: cs) = (Token.closing 1 (Token.scan cs)).map fun (inner, rest) =>
      (Token.texts inner, Token.texts rest) := by
  rw [Token.bracketed, Token.scan_cons opens]
  rfl

theorem findClosing_eq (opens : Token.classify c cs = (.opening bracket, 0))
    (small : c.utf8Size = 1) :
    findClosing (c :: cs) = (Token.bracketed (c :: cs)).map fun p => 1 + byteLength p.1 := by
  have first : byteLength (c :: cs.take 0) = 1 := by simp [small]
  rw [findClosing, tokenize, bracketed_cons opens, Token.scan_cons opens, spansFrom, closingBracket]
  simp only [Spanned.opens, if_true, first]
  rw [closingBracket_eq, Option.map_map]
  rfl

theorem exists_of_bracketed (opens : Token.classify c cs = (.opening bracket, 0))
    (found : Token.bracketed (c :: cs) = some (inner, after)) :
    ∃ close, byteLength close = 1 ∧ cs = inner ++ (close ++ after) := by
  rw [bracketed_cons opens] at found
  obtain ⟨⟨held, rest⟩, closed, texts⟩ := Option.map_eq_some_iff.mp found
  cases texts
  obtain ⟨t, closes, whole⟩ := Token.closing_append closed
  have text := Token.texts_scan cs
  have shaped := Token.shaped_scan cs t (by simp [whole])
  rw [whole, texts_append, texts_cons] at text
  refine ⟨t.text, ?_, text.symm⟩
  unfold Token.closes at closes
  split at closes
  · next kind =>
      simpa only [Token.Shaped, kind] using shaped
  · cases closes

end Brackets

end Offset

end Haml
