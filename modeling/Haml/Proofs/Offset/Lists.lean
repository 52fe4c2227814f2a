import Haml.Proofs.Offset.Attributes
/-! Lists of attributes by offsets: the tokens are read by their indices. -/

namespace Haml.Offset

open Attribute

section Reading

variable (line : Nat) (source : List Char)

def skipBlanks (tokens : List Spanned) (index : Nat) : Nat :=
  index + ((tokens.drop index).takeWhile Spanned.isBlank).length

theorem le_skipBlanks (tokens : List Spanned) (index : Nat) : index ≤ skipBlanks tokens index :=
  Nat.le_add_right _ _

def valueLength (depth : Nat) : List Spanned → Nat
  | [] => 0
  | s :: rest =>
      if s.isBlank && depth = 0 then 0
      else if s.opens then valueLength (depth + 1) rest + 1
      else if s.closes then valueLength (depth - 1) rest + 1
      else valueLength depth rest + 1

/-- The entries of a list from an index on: `name=value` pairs and bare names, which are flags. -/
def listFrom (tokens : List Spanned) (index : Nat) : Run (List AttributeEntry) :=
  if _inside : index < tokens.length then do
    let token ← (item tokens index : Option Spanned)
    if token.isBlank then listFrom tokens (index + 1)
    else
      let text ← token.text source
      let name := String.ofList text
      if !token.is .name then throw (.attributeSyntax line (.expectedName name))
      else
        let next := skipBlanks tokens (index + 1)
        if tokens[next]?.any (·.is .equals) then
          let start := skipBlanks tokens (next + 1)
          let stop := start + valueLength 0 (tokens.drop start)
          if start = stop then throw (.attributeSyntax line (.missingValue name))
          else
            let value ← range tokens start stop
            let entry ← valueEntry line source name value
            let entries ← listFrom tokens stop
            return entry.toList ++ entries
        else
          let entries ← listFrom tokens next
          return .fixed name (.flag true) :: entries
  else return []
termination_by tokens.length - index
decreasing_by
  · omega
  · have name := le_skipBlanks tokens (index + 1)
    have value := le_skipBlanks tokens (skipBlanks tokens (index + 1) + 1)
    omega
  · have name := le_skipBlanks tokens (index + 1)
    omega

def ofList : Run (List AttributeEntry) := listFrom line source (tokenize source) 0

end Reading

section Agreement

variable {source : List Char} {spans : List Spanned} {ts : List Token} {t : Token}

theorem skipBlanks_eq {done rest : List Token} {index : Nat}
    (covers : Covers source spans (done ++ rest)) (here : index = done.length) :
    skipBlanks spans index = (done ++ rest.takeWhile Token.isBlank).length := by
  obtain ⟨offset, left⟩ := covers.exists_drop here
  have blanks (offset : Nat) : ((spansFrom offset rest).takeWhile Spanned.isBlank).length =
      (rest.takeWhile Token.isBlank).length := by
    have kinds := congrArg (fun kinds => (kinds.takeWhile (· == TokenKind.blank)).length)
      (kinds_spansFrom offset rest)
    simp only [List.takeWhile_map, List.length_map] at kinds
    exact kinds
  rw [skipBlanks, left, blanks, List.length_append, here]

theorem valueLength_eq (depth offset : Nat) (ts : List Token) :
    valueLength depth (spansFrom offset ts) = (takeValue depth ts).1.length := by
  induction ts generalizing depth offset with
  | nil => rfl
  | cons t ts ih =>
      have blank : Spanned.isBlank ⟨t.kind, offset, offset + byteLength t.text⟩ = t.isBlank := rfl
      have opens : Spanned.opens ⟨t.kind, offset, offset + byteLength t.text⟩ = t.opens := rfl
      have closes : Spanned.closes ⟨t.kind, offset, offset + byteLength t.text⟩ = t.closes := rfl
      rw [spansFrom, valueLength, takeValue, blank, opens, closes]
      split
      · rfl
      · split
        · exact congrArg (· + 1) (ih _ _)
        · split
          · exact congrArg (· + 1) (ih _ _)
          · exact congrArg (· + 1) (ih _ _)

theorem takeValue_append (depth : Nat) (ts : List Token) :
    (takeValue depth ts).1 ++ (takeValue depth ts).2 = ts := by
  induction ts generalizing depth with
  | nil => rfl
  | cons t ts ih =>
      rw [takeValue]
      split
      · rfl
      · exact congrArg (t :: ·) (ih _)

theorem exists_value {done rest : List Token} {start : Nat}
    (covers : Covers source spans (done ++ rest)) (here : start = done.length) :
    valueLength 0 (spans.drop start) = (takeValue 0 rest).1.length ∧
      ∃ value, range spans start (start + (takeValue 0 rest).1.length) = some value ∧
        Covers source value (takeValue 0 rest).1 := by
  obtain ⟨offset, left⟩ := covers.exists_drop here
  rw [← takeValue_append 0 rest] at covers
  refine ⟨?_, covers.range_eq here (congrArg (· + _) here)⟩
  rw [left, valueLength_eq]

theorem listFrom_end (covers : Covers source spans ts) (line : Nat) :
    listFrom line source spans ts.length = return [] := by
  rw [listFrom, covers.length_eq, dif_neg (Nat.lt_irrefl _)]

theorem listFrom_cons {done : List Token} {index next start : Nat}
    (covers : Covers source spans (done ++ t :: ts)) (here : index = done.length)
    (after : next = (done ++ t :: ts.takeWhile Token.isBlank).length)
    (written : start = skipBlanks spans (next + 1)) (line : Nat) :
    listFrom line source spans index =
      if t.isBlank then listFrom line source spans (index + 1)
      else if !t.is .name then
        throw (.attributeSyntax line (.expectedName (String.ofList t.text)))
      else if spans[next]?.any (·.is .equals) then
        if start = start + valueLength 0 (spans.drop start) then
          throw (.attributeSyntax line (.missingValue (String.ofList t.text)))
        else do
          let value ← range spans start (start + valueLength 0 (spans.drop start))
          let entry ← valueEntry line source (String.ofList t.text) value
          let entries ← listFrom line source spans (start + valueLength 0 (spans.drop start))
          return entry.toList ++ entries
      else do
        let entries ← listFrom line source spans next
        return .fixed (String.ofList t.text) (.flag true) :: entries := by
  obtain ⟨s, found, kind, text⟩ := covers.item_eq here
  have inside : index < spans.length := by
    rw [covers.length_eq, here, List.length_append, List.length_cons]
    omega
  have blanks : skipBlanks spans (index + 1) = next := by
    have regrouped : done ++ t :: ts = (done ++ [t]) ++ ts := by simp
    rw [regrouped] at covers
    rw [skipBlanks_eq covers (by simp [here]), after]
    simp
  rw [listFrom.eq_def line source spans index, dif_pos inside, found, liftM_some_bind,
    isBlank_eq kind, text, liftM_some_bind, is_eq kind, blanks, written]

theorem append_of_dropWhile (done : List Token) (t : Token) {ts rest : List Token} {s : Token}
    (more : ts.dropWhile Token.isBlank = s :: rest) :
    done ++ t :: ts = (done ++ t :: ts.takeWhile Token.isBlank) ++ s :: rest := by
  rw [List.append_assoc, List.cons_append, ← more, List.takeWhile_append_dropWhile]

theorem any_equals {done rest : List Token} {t : Token}
    (covers : Covers source spans (done ++ t :: rest)) :
    spans[done.length]?.any (·.is .equals) = t.is .equals := by
  obtain ⟨s, found, kind, -⟩ := covers.item_eq rfl
  rw [← item, found, Option.any_some, is_eq kind]

theorem listFrom_value {done rest : List Token} {index : Nat} {e : Token}
    (covers : Covers source spans (done ++ t :: ts)) (here : index = done.length)
    (visible : ¬ t.isBlank = true) (name : ¬ (!t.is .name) = true)
    (more : ts.dropWhile Token.isBlank = e :: rest) (equals : e.is .equals = true) (line : Nat) :
    ∃ before value,
      done ++ t :: ts = before ++ (takeValue 0 (rest.dropWhile Token.isBlank)).2 ∧
      Covers source value (takeValue 0 (rest.dropWhile Token.isBlank)).1 ∧
      listFrom line source spans index =
        if (takeValue 0 (rest.dropWhile Token.isBlank)).1.isEmpty then
          throw (.attributeSyntax line (.missingValue (String.ofList t.text)))
        else do
          let entry ← valueEntry line source (String.ofList t.text) value
          let entries ← listFrom line source spans before.length
          return entry.toList ++ entries := by
  have step (start : Nat) (written : start = skipBlanks spans (_ + 1)) :=
    listFrom_cons covers here rfl written line
  have regrouped := append_of_dropWhile done t more
  rw [regrouped] at covers ⊢
  generalize done ++ t :: ts.takeWhile Token.isBlank = front at covers step ⊢
  let lead := front ++ [e] ++ rest.takeWhile Token.isBlank
  have split : front ++ e :: rest = lead ++ rest.dropWhile Token.isBlank := by
    rw [List.append_assoc, List.takeWhile_append_dropWhile]
    simp
  have start : lead.length = skipBlanks spans (front.length + 1) := by
    have later : front ++ e :: rest = (front ++ [e]) ++ rest := by simp
    rw [later] at covers
    rw [skipBlanks_eq covers (by simp)]
  have read := step lead.length start
  rw [if_neg visible, if_neg name, any_equals covers, equals, if_pos rfl] at read
  rw [split] at covers ⊢
  obtain ⟨length, value, found, covered⟩ := exists_value covers rfl
  rw [length, found, liftM_some_bind, ← List.length_append] at read
  refine ⟨lead ++ (takeValue 0 (rest.dropWhile Token.isBlank)).1, value, ?_, covered, ?_⟩
  · rw [List.append_assoc lead, takeValue_append]
  · rw [read]
    cases (takeValue 0 (rest.dropWhile Token.isBlank)).1 with
    | nil => rw [List.append_nil, if_pos rfl, if_pos List.isEmpty_nil]
    | cons first others => rw [if_neg (by simp), if_neg (by simp)]

/-- A list is read from a token on as the tokens from there are. -/
theorem listFrom_agrees {done rest : List Token} {index : Nat}
    (covers : Covers source spans (done ++ rest)) (here : index = done.length) (line : Nat) :
    Agrees Eq (listFrom line source spans index) (ofTokens line rest) := by
  fun_induction ofTokens line rest generalizing done index with
  | case1 =>
      rw [List.append_nil] at covers
      rw [here, listFrom_end covers]
      exact .ok rfl
  | case2 t ts blank ih =>
      rw [listFrom_cons covers here rfl rfl, if_pos blank]
      have regrouped : done ++ t :: ts = (done ++ [t]) ++ ts := by simp
      rw [regrouped] at covers
      exact ih covers (by simp [here])
  | case3 t ts visible other =>
      rw [listFrom_cons covers here rfl rfl, if_neg visible, if_pos other]
      exact .error _
  | case4 t ts visible name written =>
      rename_i absent
      have whole : ts.takeWhile Token.isBlank = ts := by
        have parts := List.takeWhile_append_dropWhile (p := Token.isBlank) (l := ts)
        rwa [absent, List.append_nil] at parts
      have last : spans[(done ++ t :: ts).length]? = .none := by
        rw [← covers.length_eq, List.getElem?_length]
      rw [listFrom_cons covers here rfl rfl, if_neg visible, if_neg name, whole, last,
        listFrom_end covers]
      exact .ok rfl
  | case5 t ts visible name written e rest more equals =>
      rename_i found empty
      obtain ⟨before, value, -, -, step⟩ := listFrom_value covers here visible name more equals line
      rw [step, if_pos empty]
      exact .error _
  | case6 t ts visible name written e rest more equals found =>
      rename_i filled ih
      obtain ⟨before, value, whole, covered, step⟩ :=
        listFrom_value covers here visible name more equals line
      rw [whole] at covers
      rw [step, if_neg filled]
      refine (valueEntry_agrees covered line _).bind ?_
      rintro entry _ - rfl
      refine (ih covers rfl).bind ?_
      rintro entries _ - rfl
      exact .ok rfl
  | case7 t ts visible name written e rest more flag =>
      rename_i ih
      rw [listFrom_cons covers here rfl rfl, if_neg visible, if_neg name]
      rw [append_of_dropWhile done t more] at covers
      rw [any_equals covers, if_neg flag]
      refine (ih covers rfl).bind ?_
      rintro entries _ - rfl
      exact .ok rfl

theorem ofList_agrees (line : Nat) (source : List Char) :
    Agrees Eq (ofList line source) (Attribute.ofList line source) := by
  have whole : Covers source (tokenize source) ([] ++ Token.scan source) := covers_tokenize source
  exact listFrom_agrees whole rfl line

end Agreement

end Haml.Offset
