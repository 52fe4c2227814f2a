import Haml.Attribute.Entry
import Haml.Proofs.Markers
import Haml.Proofs.Outcome
/-! Texts with something to evaluate: the scan for markers finds one that is not behind a backslash
exactly if the cut of the text into segments comes to an expression, closed or not. -/

namespace Haml

namespace Interpolation

theorem not_expression_mem_flush {literal : List Char} {code : String} :
    .expression code ∉ flush literal := by
  unfold flush
  split <;> simp

theorem expression_mem_splitFrom (literal text : List Char) :
    (∀ segments, splitFrom literal text = some segments → ∃ code, .expression code ∈ segments) ↔
      isMarked text = true := by
  -- The induction is on what is left to read. A marker behind a backslash and any other character
  -- are read by both alike, and at the first other marker both are decided.
  fun_induction splitFrom literal text with
  | case1 literal rest ih =>
      rw [ih, isMarked]
  | case2 literal rest unclosed =>
      refine iff_of_true (fun segments cut => ?_) ?_
      · cases cut
      · rw [isMarked]
  | case3 literal rest code after closed ih =>
      refine iff_of_true (fun segments cut => ?_) ?_
      · obtain ⟨others, -, rfl⟩ := Option.map_eq_some_iff.mp cut
        exact ⟨_, List.mem_append_right _ (List.mem_cons_self ..)⟩
      · rw [isMarked]
  | case4 literal c rest escaped marked ih =>
      rw [ih, isMarked]
      · exact escaped
      · exact marked
  | case5 literal =>
      refine iff_of_false (fun all => ?_) Bool.false_ne_true
      obtain ⟨code, member⟩ := all _ rfl
      exact not_expression_mem_flush member

theorem isMarked_iff_cut {text : List Char} :
    isMarked text = true ↔ split text = none ∨
      ∃ segments code, split text = some segments ∧ .expression code ∈ segments := by
  rw [← expression_mem_splitFrom [] text, ← split]
  cases split text with
  | none => simp
  | some segments => simp

theorem exists_split_of_unmarked {text : List Char} (unmarked : isMarked text = false) :
    ∃ segments, split text = some segments ∧ ∀ code, .expression code ∉ segments := by
  have apart := mt isMarked_iff_cut.mpr (ne_true_of_eq_false unmarked)
  cases cut : split text with
  | none => exact absurd (.inl cut) apart
  | some segments =>
      exact ⟨segments, rfl, fun code member => apart (.inr ⟨segments, code, cut, member⟩)⟩

end Interpolation

namespace Attribute

open Interpolation (isMarked split)

variable {line : Nat} {name : String} {t : Token}

theorem expression_mem_unescape {segments parts : List Segment}
    (read : segments.mapM unescapeSegment = .ok parts) (code : String) :
    .expression code ∈ parts ↔ .expression code ∈ segments := by
  induction segments generalizing parts with
  | nil =>
      cases read
      exact Iff.rfl
  | cons s segments ih =>
      rw [List.mapM_cons] at read
      obtain ⟨part, first, read⟩ := bind_ok read
      obtain ⟨others, rest, read⟩ := bind_ok read
      cases read
      rw [List.mem_cons, List.mem_cons, ih rest]
      cases s with
      | literal text =>
          obtain ⟨cs, -, rfl⟩ := map_ok first
          simp
      | expression other =>
          cases first
          exact Iff.rfl

theorem valueEntry_unmarked (quoted : t.kind = .doubleQuoted)
    (unmarked : isMarked (withoutQuotes t.text) = false) :
    valueEntry line name [t] =
      match unescape (withoutQuotes t.text) with
      | .ok text => .ok (some (.fixed name (.text text)))
      | .error fault => .error (.attributeSyntax line fault) := by
  rw [valueEntry, tokenEntry, unmarked, Bool.and_false, literal?, quoted]
  cases unescape (withoutQuotes t.text) with
  | ok text => rfl
  | error fault => rfl

theorem valueEntry_marked (quoted : t.kind = .doubleQuoted)
    (marked : isMarked (withoutQuotes t.text) = true) :
    valueEntry line name [t] =
      match split (withoutQuotes t.text) with
      | none => .error (.unterminatedInterpolation line)
      | some segments =>
          match segments.mapM unescapeSegment with
          | .ok parts => .ok (some (.dynamic name (.interpolated parts)))
          | .error fault => .error (.attributeSyntax line fault) := by
  have double : t.is .doubleQuoted = true := beq_iff_eq.mpr quoted
  rw [valueEntry, tokenEntry, marked, double]
  rfl

/-- A text in double quotes has the expressions of its segments, and is left to the render exactly
if it has any. -/
theorem valueEntry_cut (quoted : t.kind = .doubleQuoted) {entry : AttributeEntry}
    (read : valueEntry line name [t] = .ok (some entry)) :
    ∃ segments, split (withoutQuotes t.text) = some segments ∧
      (∀ code, code ∈ entry.expressions ↔ .expression code ∈ segments) ∧
      ((∃ value, entry = .dynamic name value) ↔ ∃ code, code ∈ entry.expressions) := by
  cases marked : isMarked (withoutQuotes t.text) with
  | true =>
      rw [valueEntry_marked quoted marked] at read
      cases cut : split (withoutQuotes t.text) with
      | none => simp [cut] at read
      | some segments =>
          cases unescaped : segments.mapM unescapeSegment with
          | error fault => simp [cut, unescaped] at read
          | ok parts =>
              simp only [cut, unescaped, Except.ok.injEq, Option.some.injEq] at read
              subst read
              have member (code : String) :
                  code ∈ (AttributeEntry.dynamic name (.interpolated parts)).expressions ↔
                    .expression code ∈ segments :=
                AttributeEntry.mem_expressions.trans (expression_mem_unescape unescaped code)
              obtain ⟨code, inside⟩ :=
                (Interpolation.expression_mem_splitFrom [] _).mpr marked segments cut
              exact ⟨segments, rfl, member, iff_of_true ⟨_, rfl⟩ ⟨code, (member code).mpr inside⟩⟩
  | false =>
      rw [valueEntry_unmarked quoted marked] at read
      cases unescaped : unescape (withoutQuotes t.text) with
      | error fault => simp [unescaped] at read
      | ok text =>
          simp only [unescaped, Except.ok.injEq, Option.some.injEq] at read
          subst read
          obtain ⟨segments, cut, literal⟩ := Interpolation.exists_split_of_unmarked marked
          have absent : ¬ ∃ code, code ∈ (AttributeEntry.fixed name (.text text)).expressions := by
            simp [AttributeEntry.expressions]
          refine ⟨segments, cut, fun code => iff_of_false ?_ (literal code), iff_of_false ?_ absent⟩
          · exact fun member => absent ⟨code, member⟩
          · rintro ⟨value, ⟨⟩⟩

theorem valueEntry_uncut (line : Nat) (name : String) (quoted : t.kind = .doubleQuoted) :
    (valueEntry line name [t] = .error (.unterminatedInterpolation line) ↔
      split (withoutQuotes t.text) = none) ∧
    valueEntry line name [t] ≠ .ok none := by
  cases marked : isMarked (withoutQuotes t.text) with
  | true =>
      rw [valueEntry_marked quoted marked]
      cases split (withoutQuotes t.text) with
      | none => simp
      | some segments => cases unescaped : segments.mapM unescapeSegment <;> simp [unescaped]
  | false =>
      obtain ⟨segments, cut, -⟩ := Interpolation.exists_split_of_unmarked marked
      rw [valueEntry_unmarked quoted marked, cut]
      cases unescape (withoutQuotes t.text) <;> simp

/-- The scan for markers and the cut into segments agree. The scan finds a marker that no backslash
stands right before exactly if the cut fails at an expression that is not closed, or comes to one.
So the text is left to the render as an attribute in double quotes exactly if it has something to
evaluate: it is refused where it cannot be cut; what it is read as otherwise has the expressions
that it is cut into, and is dynamic if there are any. -/
theorem isMarked_iff_evaluates (text : List Char) :
    (isMarked text = true ↔ ∃ before after,
      text = before ++ '#' :: '{' :: after ∧ before.getLast? ≠ some '\\') ∧
    (isMarked text = true ↔ split text = none ∨
      ∃ segments code, split text = some segments ∧ .expression code ∈ segments) ∧
    ∀ line name,
      let read := valueEntry line name [⟨.doubleQuoted, '"' :: (text ++ ['"'])⟩]
      (read = .error (.unterminatedInterpolation line) ↔ split text = none) ∧
      read ≠ .ok none ∧
      ∀ entry, read = .ok (some entry) →
        ∃ segments, split text = some segments ∧
          (∀ code, code ∈ entry.expressions ↔ .expression code ∈ segments) ∧
          ((∃ value, entry = .dynamic name value) ↔ ∃ code, code ∈ entry.expressions) := by
  refine ⟨?_, Interpolation.isMarked_iff_cut, fun line name => ?_⟩
  · rw [← Bool.not_eq_false, Interpolation.isMarked_eq_false_iff, Interpolation.Guarded]
    simp only [Classical.not_forall, exists_prop, ne_eq]
  · intro read
    have inner : withoutQuotes ('"' :: (text ++ ['"'])) = text := List.dropLast_concat
    obtain ⟨unclosed, given⟩ :=
      valueEntry_uncut line name (t := ⟨.doubleQuoted, '"' :: (text ++ ['"'])⟩) rfl
    rw [inner] at unclosed
    refine ⟨unclosed, given, fun entry found => ?_⟩
    have cut := valueEntry_cut rfl found
    rwa [inner] at cut

/-- A marker behind a backslash and one that opens an expression. -/
theorem isMarked_iff_evaluates_guarded :
    let text := "\\#{a} #{b}".toList
    let entry := AttributeEntry.dynamic "t" (.interpolated [.literal "#{a} ", .expression "b"])
    valueEntry 1 "t" [⟨.doubleQuoted, '"' :: (text ++ ['"'])⟩] = .ok (some entry) ∧
      isMarked text = true ∧ ∃ code, code ∈ entry.expressions := by
  intro text entry
  have cut : split text = some [.literal "#{a} ", .expression "b"] := by
    simp [text, split, Interpolation.splitFrom, Interpolation.closingBrace, Interpolation.closing,
      Interpolation.flush, Text.trim, Text.trimStart, Text.trimEnd, Text.dropEnd, Text.isBlank]
  obtain ⟨-, marked, reads⟩ := isMarked_iff_evaluates text
  obtain ⟨-, -, entries⟩ := reads 1 "t"
  have opened : isMarked text = true := marked.mpr (.inr ⟨_, "b", cut, by simp⟩)
  have read : valueEntry 1 "t" [⟨.doubleQuoted, '"' :: (text ++ ['"'])⟩] = .ok (some entry) := by
    have inner : withoutQuotes ('"' :: (text ++ ['"'])) = text := List.dropLast_concat
    rw [valueEntry_marked rfl (inner.symm ▸ opened), inner, cut]
    rfl
  obtain ⟨-, -, -, dynamic⟩ := entries entry read
  exact ⟨read, opened, dynamic.mp ⟨_, rfl⟩⟩

end Attribute

end Haml
