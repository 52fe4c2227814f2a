import Haml.Proofs.Interpolated
import Haml.Proofs.Markers
/-! Segments written out: the texts that segments stand for, and how such texts are cut again. -/

namespace Haml

namespace Text

theorem trim_trim (cs : List Char) : trim (trim cs) = trim cs := by
  have twice : trimStart (trimStart cs) = trimStart cs :=
    List.dropWhile_idempotent _ cs
  calc trim (trim cs)
      = trim (trimStart cs) := trim_trimEnd _
    _ = trim cs := congrArg trimEnd twice

end Text

def Segment.write : Segment → List Char
  | .literal text => Interpolation.escape text.toList
  | .expression code => '#' :: '{' :: (code.toList ++ ['}'])

namespace Interpolation

def write (segments : List Segment) : List Char := segments.flatMap Segment.write

/-- Whether a text can be cut into these segments: literals are not empty, stand apart, and do not
escape the marker of an expression; expressions are trimmed, and closed by the first brace after
them. -/
structure Formed (segments : List Segment) : Prop where
  apart : ∀ text other, ¬ [.literal text, .literal other] <:+: segments
  filled : ∀ text, .literal text ∈ segments → text.toList ≠ []
  unescaping : ∀ text code, [.literal text, .expression code] <:+: segments →
    text.toList.getLast? ≠ some '\\'
  trimmed : ∀ code, .expression code ∈ segments → Text.trim code.toList = code.toList
  closed : ∀ code, .expression code ∈ segments → ∀ rest,
    closingBrace (code.toList ++ '}' :: rest) = some (code.toList, rest)

/-- Escaped text is read as what it was, whatever follows it. -/
theorem splitFrom_escape {cs rest : List Char} (closed : rest.head? ≠ some '{')
    (unescaping : Marked rest → cs.getLast? ≠ some '\\') (literal : List Char) :
    splitFrom literal (escape cs ++ rest) = splitFrom (literal ++ cs) rest := by
  fun_induction escape cs generalizing literal with
  | case1 cs ih =>
      have later : Marked rest → cs.getLast? ≠ some '\\' := by
        intro marked last
        refine unescaping marked ?_
        rw [List.getLast?_cons, List.getLast?_cons, last]
        rfl
      rw [List.cons_append, List.cons_append, List.cons_append, splitFrom, ih later,
        List.append_assoc]
      rfl
  | case2 c cs unmarked ih =>
      have start : escape (c :: cs) = c :: escape cs := by
        rw [escape]
        exact unmarked
      have here : ¬ Marked (c :: (escape cs ++ rest)) := by
        intro marked
        rw [← List.cons_append, ← start] at marked
        cases eq_nil_of_marked closed marked
      have plain : c = '\\' → ¬ Marked (escape cs ++ rest) := by
        rintro rfl marked
        obtain rfl := eq_nil_of_marked closed marked
        exact unescaping marked rfl
      have later : Marked rest → cs.getLast? ≠ some '\\' := by
        intro marked last
        refine unescaping marked ?_
        rw [List.getLast?_cons, last]
        rfl
      rw [List.cons_append, splitFrom_cons here plain, ih later, List.append_assoc]
      rfl
  | case3 => rw [List.nil_append, List.append_nil]

theorem Formed.tail {s : Segment} {segments : List Segment} (formed : Formed (s :: segments)) :
    Formed segments where
  apart text other inside := formed.apart text other (List.infix_cons inside)
  filled text member := formed.filled text (List.mem_cons_of_mem s member)
  unescaping text code inside := formed.unescaping text code (List.infix_cons inside)
  trimmed code member := formed.trimmed code (List.mem_cons_of_mem s member)
  closed code member := formed.closed code (List.mem_cons_of_mem s member)

theorem Formed.follows {text : String} {segments : List Segment}
    (formed : Formed (.literal text :: segments)) :
    (∀ other, segments.head? ≠ some (.literal other)) ∧ (write segments).head? ≠ some '{' ∧
      (Marked (write segments) → text.toList.getLast? ≠ some '\\') := by
  cases segments with
  | nil => simp [write]
  | cons next rest =>
      cases next with
      | literal other => exact absurd ⟨[], rest, rfl⟩ (formed.apart text other)
      | expression code =>
          refine ⟨by simp, by simp [write, Segment.write], fun _ => ?_⟩
          exact formed.unescaping text code ⟨[], rest, rfl⟩

theorem flush_toList {text : String} (filled : text.toList ≠ []) :
    flush text.toList = [.literal text] := by
  rw [flush, List.isEmpty_eq_false_iff.mpr filled, if_neg Bool.false_ne_true, String.ofList_toList]

theorem splitFrom_write_expression {code : String} {segments : List Segment}
    (formed : Formed (.expression code :: segments))
    (split : split (write segments) = some segments) (literal : List Char) :
    splitFrom literal (write (.expression code :: segments)) =
      some (flush literal ++ .expression code :: segments) := by
  have member : .expression code ∈ Segment.expression code :: segments := List.mem_cons_self ..
  have text : write (.expression code :: segments) =
      '#' :: '{' :: (code.toList ++ '}' :: write segments) := by
    simp [write, Segment.write]
  rw [text, splitFrom_marker, formed.closed code member, Option.bind_some, ← Interpolation.split,
    split, formed.trimmed code member, String.ofList_toList]
  rfl

/-- Segments are cut again, also behind a literal if none comes first. The induction is on the
segments, each literal being read up to the expression after it. -/
theorem split_write {segments : List Segment} (formed : Formed segments) :
    split (write segments) = some segments ∧
      ((∀ text, segments.head? ≠ some (.literal text)) →
        ∀ literal, splitFrom literal (write segments) = some (flush literal ++ segments)) := by
  induction segments with
  | nil =>
      refine ⟨by rw [split, write, List.flatMap_nil, splitFrom]; rfl, fun _ literal => ?_⟩
      rw [write, List.flatMap_nil, splitFrom, List.append_nil]
  | cons s segments ih =>
      obtain ⟨whole, behind⟩ := ih formed.tail
      cases s with
      | expression code =>
          have cut := splitFrom_write_expression formed whole
          exact ⟨cut [], fun _ => cut⟩
      | literal text =>
          have filled := formed.filled text (List.mem_cons_self ..)
          obtain ⟨apart, closed, unescaping⟩ := formed.follows
          refine ⟨?_, fun absent => absurd rfl (absent text)⟩
          have start : write (.literal text :: segments) =
              escape text.toList ++ write segments := rfl
          rw [split, start, splitFrom_escape closed unescaping, List.nil_append, behind apart,
            flush_toList filled]
          rfl

/-! What a text is cut into is formed so. -/

section

variable {depth : Nat} {quote : Option Char} {escaped : Bool} {c : Char}
  {cs blanks body rest : List Char}

theorem closing_cons (closes : closing depth quote escaped (c :: cs) = some (c :: body, rest)) :
    ∃ depth' quote' escaped',
      ((∀ q ∈ quote, Text.isBlank q = false) → ∀ q ∈ quote', Text.isBlank q = false) ∧
      closing depth' quote' escaped' cs = some (body, rest) ∧
      ∀ cs' body' rest', closing depth' quote' escaped' cs' = some (body', rest') →
        closing depth quote escaped (c :: cs') = some (c :: body', rest') := by
  cases quote with
  | some q =>
      rw [closing] at closes
      obtain ⟨⟨inner, after⟩, found, same⟩ := Option.map_eq_some_iff.mp closes
      cases same
      refine ⟨_, _, _, fun seen p member => ?_, found, fun cs' body' rest' found' => ?_⟩
      · split at member
        · exact seen p member
        · cases member
      · rw [closing, found']
        rfl
  | none =>
      rw [closing] at closes
      split at closes
      · cases closes
      · next inside =>
          obtain ⟨⟨inner, after⟩, found, same⟩ := Option.map_eq_some_iff.mp closes
          cases same
          refine ⟨_, _, _, fun _ p member => ?_, found, fun cs' body' rest' found' => ?_⟩
          · split at member
            · next quotes =>
                cases member
                simp only [Bool.or_eq_true, beq_iff_eq] at quotes
                rcases quotes with rfl | rfl <;> rfl
            · cases member
          · rw [closing, if_neg inside]
            exact Option.map_eq_some_iff.mpr ⟨_, found', rfl⟩

theorem closing_nil (closes : closing depth quote escaped cs = some ([], rest)) :
    depth = 0 ∧ quote = none := by
  cases cs with
  | nil => cases closes
  | cons c cs =>
      cases quote with
      | some q =>
          rw [closing] at closes
          obtain ⟨_, _, same⟩ := Option.map_eq_some_iff.mp closes
          cases same
      | none =>
          rw [closing] at closes
          split at closes
          · next ended =>
              simp only [Bool.and_eq_true, beq_iff_eq] at ended
              exact ⟨ended.2, rfl⟩
          · obtain ⟨_, _, same⟩ := Option.map_eq_some_iff.mp closes
            cases same

/-- What closes a body does so whatever comes after it. -/
theorem closing_closed (closes : closing depth quote escaped (body ++ '}' :: rest) =
    some (body, rest)) (other : List Char) :
    closing depth quote escaped (body ++ '}' :: other) = some (body, other) := by
  induction body generalizing depth quote escaped with
  | nil =>
      obtain ⟨rfl, rfl⟩ := closing_nil closes
      rfl
  | cons c body ih =>
      obtain ⟨_, _, _, -, inside, step⟩ := closing_cons closes
      exact step _ _ _ (ih inside)

theorem closing_blank (blank : Text.isBlank c = true) (cs : List Char) :
    closing depth none escaped (c :: cs) =
      (closing depth none false cs).map fun (body, rest) => (c :: body, rest) := by
  have other {d : Char} (visible : Text.isBlank d = false) : (c == d) = false := by
    refine beq_eq_false_iff_ne.mpr ?_
    rintro rfl
    exact Bool.false_ne_true (visible.symm.trans blank)
  simp only [closing, other (d := '}') rfl, other (d := '{') rfl, other (d := '\'') rfl,
    other (d := '"') rfl]
  rfl

theorem closing_trimStart (closes : closing depth none false (body ++ '}' :: rest) =
    some (body, rest)) : closing depth none false (Text.trimStart body ++ '}' :: rest) =
      some (Text.trimStart body, rest) := by
  induction body with
  | nil => exact closes
  | cons c body ih =>
      cases blank : Text.isBlank c with
      | true =>
          have dropped : Text.trimStart (c :: body) = Text.trimStart body :=
            List.dropWhile_cons_of_pos blank
          rw [List.cons_append, closing_blank blank] at closes
          obtain ⟨⟨inner, after⟩, inside, same⟩ := Option.map_eq_some_iff.mp closes
          cases same
          rw [dropped]
          exact ih inside
      | false =>
          have kept : Text.trimStart (c :: body) = c :: body :=
            List.dropWhile_cons_of_neg (by simp [blank])
          rw [kept]
          exact closes

/-- White space closes nothing, so a body that ends with it is over before it. -/
theorem closing_blanks (seen : ∀ q ∈ quote, Text.isBlank q = false)
    (blank : ∀ c ∈ blanks, Text.isBlank c = true)
    (closes : closing depth quote escaped (blanks ++ '}' :: rest) = some (blanks, rest)) :
    depth = 0 ∧ quote = none := by
  induction blanks generalizing escaped with
  | nil => exact closing_nil closes
  | cons c blanks ih =>
      obtain ⟨here, others⟩ := List.forall_mem_cons.mp blank
      cases quote with
      | none =>
          rw [List.cons_append, closing_blank here] at closes
          obtain ⟨⟨inner, after⟩, inside, same⟩ := Option.map_eq_some_iff.mp closes
          cases same
          exact ih others inside
      | some q =>
          have stays : (c != q) = true := by
            refine bne_iff_ne.mpr ?_
            rintro rfl
            exact Bool.false_ne_true ((seen c rfl).symm.trans here)
          rw [List.cons_append, closing, stays, Bool.or_true, if_pos rfl] at closes
          obtain ⟨⟨inner, after⟩, inside, same⟩ := Option.map_eq_some_iff.mp closes
          cases same
          exact ih others inside

theorem closing_trimEnd (seen : ∀ q ∈ quote, Text.isBlank q = false)
    (closes : closing depth quote escaped (body ++ '}' :: rest) = some (body, rest)) :
    closing depth quote escaped (Text.trimEnd body ++ '}' :: rest) =
      some (Text.trimEnd body, rest) := by
  induction body generalizing depth quote escaped with
  | nil => exact closes
  | cons c body ih =>
      by_cases blank : ∀ d ∈ c :: body, Text.isBlank d = true
      · have empty : Text.trimEnd (c :: body) = [] := List.rdropWhile_eq_nil_iff.mpr blank
        obtain ⟨rfl, rfl⟩ := closing_blanks seen blank closes
        rw [empty]
        rfl
      · have kept : Text.trimEnd (c :: body) = c :: Text.trimEnd body := by
          by_cases filled : Text.trimEnd body = []
          · have others := List.rdropWhile_eq_nil_iff.mp filled
            have here : Text.isBlank c ≠ true := fun here =>
              blank (List.forall_mem_cons.mpr ⟨here, others⟩)
            exact Text.trimEnd_cons_of_visible (Bool.eq_false_iff.mpr here) body
          · exact Text.trimEnd_append_of_filled filled [c]
        obtain ⟨_, _, _, seen', inside, step⟩ := closing_cons closes
        rw [kept]
        exact step _ _ _ (ih (seen' seen) inside)

end

/-- What is cut out as an expression is closed, also without the white space around it. -/
theorem closingBrace_trim {cs body rest : List Char} (closes : closingBrace cs = some (body, rest))
    (other : List Char) :
    closingBrace (Text.trim body ++ '}' :: other) = some (Text.trim body, other) := by
  obtain rfl := closing_append closes
  have unquoted : ∀ q ∈ (none : Option Char), Text.isBlank q = false := by simp
  exact closing_closed (closing_trimEnd unquoted (closing_trimStart closes)) other

theorem infix_pair_cons {a b s : Segment} {segments : List Segment}
    (inside : [a, b] <:+: s :: segments) :
    a = s ∧ segments.head? = some b ∨ [a, b] <:+: segments := by
  rcases List.infix_cons_iff.mp inside with ⟨rest, same⟩ | later
  · cases same
    exact .inl ⟨rfl, rfl⟩
  · exact .inr later

theorem Formed.cons_expression {code : String} {segments : List Segment} (formed : Formed segments)
    (trimmed : Text.trim code.toList = code.toList)
    (closed : ∀ rest, closingBrace (code.toList ++ '}' :: rest) = some (code.toList, rest)) :
    Formed (.expression code :: segments) where
  apart text other inside := by
    rcases infix_pair_cons inside with ⟨⟨⟩, -⟩ | later
    exact formed.apart text other later
  filled text member := formed.filled text (by simpa using member)
  unescaping text other inside := by
    rcases infix_pair_cons inside with ⟨⟨⟩, -⟩ | later
    exact formed.unescaping text other later
  trimmed other member := by
    rcases List.mem_cons.mp member with same | later
    · cases same
      exact trimmed
    · exact formed.trimmed other later
  closed other member := by
    rcases List.mem_cons.mp member with same | later
    · cases same
      exact closed
    · exact formed.closed other later

theorem Formed.cons_literal {text code : String} {segments : List Segment}
    (formed : Formed (.expression code :: segments)) (filled : text.toList ≠ [])
    (unescaping : text.toList.getLast? ≠ some '\\') :
    Formed (.literal text :: .expression code :: segments) where
  apart first other inside := by
    rcases infix_pair_cons inside with ⟨-, ⟨⟩⟩ | later
    exact formed.apart first other later
  filled other member := by
    rcases List.mem_cons.mp member with same | later
    · cases same
      exact filled
    · exact formed.filled other later
  unescaping first other inside := by
    rcases infix_pair_cons inside with ⟨⟨⟩, -⟩ | later
    · exact unescaping
    · exact formed.unescaping first other later
  trimmed other member := formed.trimmed other (by simpa using member)
  closed other member := formed.closed other (by simpa using member)

theorem formed_flush (literal : List Char) : Formed (flush literal) := by
  rw [flush]
  split
  · exact ⟨by simp, by simp, by simp, by simp, by simp⟩
  · next filled =>
      refine ⟨fun text other inside => ?_, ?_, fun text code inside => ?_, by simp, by simp⟩
      · have short := inside.length_le
        simp at short
      · rintro text member
        cases List.mem_singleton.mp member
        simpa using filled
      · have short := inside.length_le
        simp at short

theorem formed_of_splitFrom {literal cs : List Char} {segments : List Segment}
    (unescaping : Marked cs → literal.getLast? ≠ some '\\')
    (cut : splitFrom literal cs = some segments) : Formed segments := by
  -- The induction is on the text: a literal that ends in a backslash is followed by no marker.
  fun_induction splitFrom literal cs generalizing segments with
  | case1 literal rest ih => exact ih (by simp) cut
  | case2 literal rest unclosed => cases cut
  | case3 literal rest code after closed ih =>
      obtain ⟨others, later, rfl⟩ := Option.map_eq_some_iff.mp cut
      have body := String.toList_ofList (l := Text.trim code)
      have formed : Formed (.expression (String.ofList (Text.trim code)) :: others) :=
        (ih (by simp) later).cons_expression (by rw [body, Text.trim_trim]) fun other => by
          rw [body]
          exact closingBrace_trim closed other
      unfold flush
      split
      · exact formed
      · next filled =>
          have ends := unescaping (List.prefix_append ['#', '{'] rest)
          exact formed.cons_literal (by simpa using filled) (by rwa [String.toList_ofList])
  | case4 literal c rest escaped marked ih =>
      refine ih (fun marker => ?_) cut
      obtain ⟨tail, rfl⟩ := marker
      rw [List.getLast?_concat]
      rintro ⟨⟩
      exact escaped tail rfl rfl
  | case5 literal =>
      cases cut
      exact formed_flush literal

/-- Segments are cut out of the text they are written as exactly if they are formed as what texts
are cut into. -/
theorem split_write_iff {segments : List Segment} :
    split (write segments) = some segments ↔ Formed segments :=
  ⟨formed_of_splitFrom (by simp), fun formed => (split_write formed).1⟩

end Interpolation

end Haml
