import Haml.Proofs.Indented
import Haml.Proofs.Merging
import Haml.Proofs.Printing.Lines
/-! Histories of attributes: what merges and removals come to, done one after another from the empty
set on. -/

namespace Haml

namespace Text

theorem mem_words {cs word : List Char} (member : word ∈ words cs) :
    word ≠ [] ∧ ∀ c ∈ word, isBlank c = false := by
  obtain ⟨piece, filled⟩ := List.mem_filter.mp member
  exact ⟨of_decide_eq_true filled, of_mem_splitOnP piece⟩

theorem words_intercalate {tokens : List (List Char)}
    (each : ∀ word ∈ tokens, word ≠ [] ∧ ∀ c ∈ word, isBlank c = false) :
    words (List.intercalate [' '] tokens) = tokens := by
  induction tokens with
  | nil => rfl
  | cons word rest ih =>
      obtain ⟨⟨filled, whole⟩, others⟩ := List.forall_mem_cons.mp each
      cases rest with
      | nil =>
          rw [List.intercalate_singleton, words, List.splitOnP_eq_singleton whole]
          simp [filled]
      | cons next rest =>
          rw [List.intercalate_cons_cons, List.append_assoc, List.singleton_append, words,
            List.splitOnP_append_cons_of_forall_mem whole ' ' rfl]
          have first := ih others
          rw [words] at first
          rw [List.filter_cons, if_pos (decide_eq_true filled), first]

end Text

inductive AttributeChange where
  | merge (name : String) (value : AttributeValue)
  | remove (name : String)
  deriving DecidableEq, Repr

def AttributeChange.name : AttributeChange → String
  | merge name _ | remove name => name

namespace AttributeSet

def change (s : AttributeSet) : AttributeChange → AttributeSet
  | .merge name value => s.merge name value
  | .remove name => s.erase name

/-- What a history of changes makes of the empty set. -/
def after (history : List AttributeChange) : AttributeSet := history.foldl change .empty

def names (s : AttributeSet) : List String := s.entries.map (·.1)

def sinceRemoval (name : String) (history : List AttributeChange) : List AttributeChange :=
  (history.reverse.takeWhile (· ≠ .remove name)).reverse

/-- The texts merged under a name since it was last removed. -/
def textsOf (name : String) (history : List AttributeChange) : List String :=
  (sinceRemoval name history).filterMap fun
    | .merge n (.text value) => if n = name then some value else none
    | _ => none

def tokensOf (texts : List String) : List (List Char) :=
  texts.flatMap fun text => Text.words text.toList

def classOf (texts : List String) : Option AttributeValue :=
  if tokensOf texts = [] then none
  else some (.text (String.ofList (List.intercalate [' '] (tokensOf texts).eraseDups)))

def filledOf (texts : List String) : List String := texts.filter (· ≠ "")

def idOf (texts : List String) : Option AttributeValue :=
  if filledOf texts = [] then none else some (.text ("-".intercalate (filledOf texts)))

def lastOf (name : String) (history : List AttributeChange) : Option AttributeValue :=
  match (history.filter fun change => change.name = name).getLast? with
  | some (.merge _ value) => some value
  | some (.remove _) | none => none

/-- Whether a name has come to be present by the change at this place of a history, and has been
present from there on. -/
structure PresentFrom (name : String) (history : List AttributeChange) (moment : Nat) : Prop where
  within : moment < history.length
  absent : name ∉ (after (history.take moment)).names
  present : ∀ count, moment < count → count ≤ history.length →
    name ∈ (after (history.take count)).names

/-- What a set says of a history of changes. -/
structure Recounts (s : AttributeSet) (history : List AttributeChange) : Prop where
  classes : s.get? "class" = classOf (textsOf "class" history)
  ids : s.get? "id" = idOf (textsOf "id" history)
  others : ∀ name, ¬ Accumulates name → s.get? name = lastOf name history
  present : ∀ name, name ∈ s.names ↔ (s.get? name).isSome
  flags : ∀ name, Accumulates name → ∀ value, s.merge name (.flag value) = s
  ordered : ∃ moment : String → Nat, (∀ name ∈ s.names, PresentFrom name history (moment name)) ∧
    s.names.Pairwise fun earlier later => moment earlier < moment later
  steady : ∀ name value, (s.merge name value).names = s.names ∨
    name ∉ s.names ∧ (s.merge name value).names = s.names ++ [name]

section

variable {s : AttributeSet} {name : String} {history : List AttributeChange}

theorem after_concat (history : List AttributeChange) (c : AttributeChange) :
    after (history ++ [c]) = (after history).change c := by
  rw [after, List.foldl_append]
  rfl

theorem sinceRemoval_concat (name : String) (history : List AttributeChange) (c : AttributeChange) :
    sinceRemoval name (history ++ [c]) =
      if c = .remove name then [] else sinceRemoval name history ++ [c] := by
  rw [sinceRemoval, List.reverse_append, List.reverse_singleton, List.singleton_append,
    List.takeWhile_cons]
  by_cases removed : c = .remove name <;> simp [removed, sinceRemoval]

theorem textsOf_remove (history : List AttributeChange) (n name : String) :
    textsOf name (history ++ [.remove n]) = if n = name then [] else textsOf name history := by
  rw [textsOf, sinceRemoval_concat]
  by_cases here : n = name <;> simp [here, textsOf]

theorem textsOf_merge (history : List AttributeChange) (n name : String) (value : AttributeValue) :
    textsOf name (history ++ [.merge n value]) = textsOf name history ++
      match value with
      | .text text => if n = name then [text] else []
      | .flag _ => [] := by
  rw [textsOf, sinceRemoval_concat, if_neg nofun, List.filterMap_append, ← textsOf]
  cases value with
  | flag value => rfl
  | text text => by_cases here : n = name <;> simp [here]

/-- What is read off the texts of a name holds of a history if it holds of each text that is merged. -/
theorem get?_after_of_textsOf {read : List String → Option AttributeValue} (absent : read [] = none)
    (flag : ∀ s value, AttributeSet.merge s name (.flag value) = s)
    (text : ∀ s texts value, AttributeSet.get? s name = read texts →
      (s.merge name (.text value)).get? name = read (texts ++ [value])) :
    (after history).get? name = read (textsOf name history) := by
  induction history using List.reverseRecOn with
  | nil => exact absent.symm
  | append_singleton history c ih =>
      rw [after_concat]
      cases c with
      | remove n =>
          rw [textsOf_remove]
          have erased := get?_erase (after history) n name
          by_cases here : n = name
          · rw [if_pos here] at erased ⊢
            exact erased.trans absent.symm
          · rw [if_neg here] at erased ⊢
            exact erased.trans ih
      | merge n value =>
          rw [textsOf_merge]
          by_cases here : n = name
          · subst here
            cases value with
            | flag value => simpa [change, flag] using ih
            | text value => simpa [change] using text _ _ value ih
          · have same := get?_merge_of_ne here (after history) value
            rw [change, same, ih]
            cases value <;> simp [here]

theorem addTokens_eraseDups (tokens new : List (List Char)) :
    addTokens tokens.eraseDups new = (tokens ++ new).eraseDups := by
  induction new generalizing tokens with
  | nil => rw [List.append_nil, addTokens, List.foldl_nil]
  | cons token new ih =>
      have next : (if token ∈ tokens.eraseDups then tokens.eraseDups
          else tokens.eraseDups ++ [token]) = (tokens ++ [token]).eraseDups := by
        rw [List.eraseDups_append]
        by_cases seen : token ∈ tokens <;> simp [seen, List.removeAll, List.eraseDups_cons]
      rw [addTokens, List.foldl_cons, next, ← addTokens, ih, List.append_assoc, List.singleton_append]

theorem words_textOf {texts : List String} (same : s.get? "class" = classOf texts) :
    Text.words (s.textOf "class") = (tokensOf texts).eraseDups := by
  rw [textOf, same, classOf]
  by_cases empty : tokensOf texts = []
  · rw [if_pos empty, empty]
    rfl
  · rw [if_neg empty]
    dsimp only
    rw [String.toList_ofList, Text.words_intercalate]
    intro word member
    obtain ⟨text, -, among⟩ := List.mem_flatMap.mp (List.mem_eraseDups.mp member)
    exact Text.mem_words among

theorem eraseDups_eq_nil_iff (tokens : List (List Char)) : tokens.eraseDups = [] ↔ tokens = [] := by
  cases tokens with
  | nil => exact Iff.rfl
  | cons token rest => simp [List.eraseDups_cons]

theorem get?_merge_class (texts : List String) (value : String)
    (same : s.get? "class" = classOf texts) :
    (s.merge "class" (.text value)).get? "class" = classOf (texts ++ [value]) := by
  have all : addTokens (Text.words (s.textOf "class")) (Text.words value.toList) =
      (tokensOf (texts ++ [value])).eraseDups := by
    rw [words_textOf same, addTokens_eraseDups, tokensOf, tokensOf, List.flatMap_append,
      List.flatMap_singleton]
  have merged : s.merge "class" (.text value) = s.mergeClass value := rfl
  rw [merged, mergeClass, all]
  by_cases empty : tokensOf (texts ++ [value]) = []
  · have before : tokensOf texts = [] := by
      rw [tokensOf, List.flatMap_append] at empty
      exact (List.append_eq_nil_iff.mp empty).1
    have kept : s.get? "class" = .none := by rw [same, classOf, if_pos before]
    rw [classOf, if_pos empty, empty]
    exact kept
  · have filled := mt (eraseDups_eq_nil_iff _).mp empty
    rw [classOf, if_neg empty, if_neg (by simpa using filled), get?_put, if_pos rfl]

theorem text_textOf {texts : List String} (same : s.get? "id" = idOf texts) :
    String.ofList (s.textOf "id") = "-".intercalate (filledOf texts) := by
  rw [textOf, same, idOf]
  by_cases empty : filledOf texts = []
  · rw [if_pos empty, empty]
    rfl
  · rw [if_neg empty]
    exact String.ofList_toList

theorem intercalate_ne_empty {texts : List String} (given : filledOf texts ≠ []) :
    "-".intercalate (filledOf texts) ≠ "" := by
  have filled : ∀ text ∈ filledOf texts, text ≠ "" := fun text member =>
    of_decide_eq_true (List.mem_filter.mp member).2
  cases parts : filledOf texts with
  | nil => exact absurd parts given
  | cons first rest =>
      rw [parts] at filled
      have here := filled first (List.mem_cons_self ..)
      cases rest with
      | nil => simpa using here
      | cons next rest => simp [String.intercalate_cons_cons, String.append_eq_empty_iff]

theorem filledOf_concat (texts : List String) (text : String) :
    filledOf (texts ++ [text]) = filledOf texts ++ if text = "" then [] else [text] := by
  by_cases empty : text = "" <;> simp [filledOf, empty]

theorem get?_merge_id (texts : List String) (value : String) (same : s.get? "id" = idOf texts) :
    (s.merge "id" (.text value)).get? "id" = idOf (texts ++ [value]) := by
  have merged : s.merge "id" (.text value) = s.mergeId value := rfl
  rw [merged, mergeId]
  by_cases empty : value = ""
  · rw [if_pos (String.isEmpty_iff.mpr empty), same, idOf, idOf, filledOf_concat, if_pos empty,
      List.append_nil]
  · rw [if_neg (mt String.isEmpty_iff.mp empty), idOf, filledOf_concat, if_neg empty,
      if_neg (by simp)]
    dsimp only
    rw [get?_put, if_pos rfl, text_textOf same]
    by_cases nil : filledOf texts = []
    · simp [nil]
    · rw [if_neg (mt String.isEmpty_iff.mp (intercalate_ne_empty nil)),
        String.intercalate_append_of_ne_nil nil (List.cons_ne_nil _ _), String.intercalate_singleton]

theorem mem_names (s : AttributeSet) (name : String) : name ∈ s.names ↔ (s.get? name).isSome := by
  obtain ⟨entries⟩ := s
  rw [names, get?]
  induction entries with
  | nil => simp [Dict.find?]
  | cons entry rest ih =>
      obtain ⟨n, v⟩ := entry
      by_cases here : n = name
      · simp [Dict.find?, here]
      · rw [List.map_cons, List.mem_cons, Dict.find?, if_neg here, ih]
        exact or_iff_right (Ne.symm here)

/-- Names that do not gather values have what their last change says. -/
theorem get?_after (plain : ¬ Accumulates name) : (after history).get? name = lastOf name history := by
  induction history using List.reverseRecOn with
  | nil => rfl
  | append_singleton history c ih =>
      rw [after_concat, lastOf, List.filter_append]
      by_cases here : c.name = name
      · subst here
        rw [List.filter_singleton, decide_eq_true rfl, cond_true, List.getLast?_concat]
        cases c with
        | merge n value => exact get?_merge plain (after history) value
        | remove n => exact (get?_erase (after history) n n).trans (if_pos rfl)
      · rw [List.filter_singleton, decide_eq_false here, cond_false, List.append_nil, ← lastOf, ← ih]
        cases c with
        | merge n value => exact get?_merge_of_ne here (after history) value
        | remove n => exact (get?_erase (after history) n name).trans (if_neg here)

theorem map_put (name : String) (value : AttributeValue) (entries : List (String × AttributeValue)) :
    (put name value entries).map (·.1) =
      if name ∈ entries.map (·.1) then entries.map (·.1) else entries.map (·.1) ++ [name] := by
  induction entries with
  | nil => rfl
  | cons entry rest ih =>
      obtain ⟨n, v⟩ := entry
      by_cases here : n = name
      · simp [put, here]
      · by_cases later : name ∈ rest.map (·.1)
        · rw [if_pos later] at ih
          rw [put, if_neg here, List.map_cons, ih, List.map_cons,
            if_pos (List.mem_cons_of_mem n later)]
        · rw [if_neg later] at ih
          rw [put, if_neg here, List.map_cons, ih, List.map_cons,
            if_neg (List.not_mem_cons_of_ne_of_not_mem (Ne.symm here) later), List.cons_append]

theorem names_put (s : AttributeSet) (name : String) (value : AttributeValue) :
    names ⟨put name value s.entries⟩ = s.names ∨
      name ∉ s.names ∧ names ⟨put name value s.entries⟩ = s.names ++ [name] := by
  have same := map_put name value s.entries
  by_cases present : name ∈ s.names
  · exact .inl (same.trans (if_pos present))
  · exact .inr ⟨present, same.trans (if_neg present)⟩

theorem names_merge (s : AttributeSet) (name : String) (value : AttributeValue) :
    (s.merge name value).names = s.names ∨
      name ∉ s.names ∧ (s.merge name value).names = s.names ++ [name] := by
  cases value with
  | flag value =>
      rw [merge]
      split
      · exact .inl rfl
      · exact names_put s name _
  | text value =>
      rw [merge]
      split
      · next isClass =>
          subst isClass
          unfold mergeClass
          dsimp only
          split
          · exact .inl rfl
          · exact names_put s _ _
      · split
        · next isId =>
            subst isId
            unfold mergeId
            split
            · exact .inl rfl
            · exact names_put s _ _
        · exact names_put s name _

theorem names_erase (s : AttributeSet) (name : String) :
    (s.erase name).names = s.names.filter (· ≠ name) := by
  rw [names, names, List.filter_map]
  rfl

theorem PresentFrom.concat {moment : Nat} (since : PresentFrom name history moment)
    {c : AttributeChange} (stays : name ∈ (after (history ++ [c])).names) :
    PresentFrom name (history ++ [c]) moment := by
  obtain ⟨within, absent, present⟩ := since
  have longer : (history ++ [c]).length = history.length + 1 := List.length_append
  refine ⟨by omega, ?_, fun count later most => ?_⟩
  · rwa [List.take_append_of_le_length within.le]
  · rcases Nat.lt_or_ge history.length count with beyond | inside
    · rw [List.take_of_length_le (by omega)]
      exact stays
    · rw [List.take_append_of_le_length inside]
      exact present count later inside

theorem PresentFrom.new {c : AttributeChange} (absent : name ∉ (after history).names)
    (comes : name ∈ (after (history ++ [c])).names) :
    PresentFrom name (history ++ [c]) history.length := by
  have longer : (history ++ [c]).length = history.length + 1 := List.length_append
  refine ⟨by omega, ?_, fun count later most => ?_⟩
  · rwa [List.take_append_of_le_length (Nat.le_refl _), List.take_length]
  · rwa [List.take_of_length_le (by omega)]

/-- The names stand in the order in which they have come to be present. -/
theorem names_ordered (history : List AttributeChange) :
    ∃ moment : String → Nat, (∀ name ∈ (after history).names, PresentFrom name history (moment name)) ∧
      (after history).names.Pairwise fun earlier later => moment earlier < moment later := by
  induction history using List.reverseRecOn with
  | nil => exact ⟨fun _ => 0, nofun, .nil⟩
  | append_singleton history c ih =>
      obtain ⟨moment, since, sorted⟩ := ih
      have kept (names : (after (history ++ [c])).names.Sublist (after history).names) :
          ∃ moment : String → Nat, (∀ name ∈ (after (history ++ [c])).names,
            PresentFrom name (history ++ [c]) (moment name)) ∧
            (after (history ++ [c])).names.Pairwise fun earlier later =>
              moment earlier < moment later :=
        ⟨moment, fun name member => (since name (names.mem member)).concat member,
          sorted.sublist names⟩
      cases c with
      | remove n =>
          refine kept ?_
          rw [after_concat, change, names_erase]
          exact List.filter_sublist
      | merge n value =>
          rcases names_merge (after history) n value with same | ⟨absent, more⟩
          · refine kept ?_
            rw [after_concat, change, same]
          · have all :
                (after (history ++ [.merge n value])).names = (after history).names ++ [n] := by
              rw [after_concat, change, more]
            have before {name : String} (member : name ∈ (after history).names) : name ≠ n := by
              rintro rfl
              exact absent member
            refine ⟨Function.update moment n history.length, fun name member => ?_, ?_⟩
            · by_cases here : name = n
              · subst here
                rw [Function.update_self]
                exact .new absent member
              · have old : name ∈ (after history).names := by simpa [all, here] using member
                rw [Function.update_of_ne here]
                exact (since name old).concat member
            · rw [all, List.pairwise_append]
              refine ⟨sorted.imp_of_mem fun first second earlier => ?_,
                List.pairwise_singleton _ _, ?_⟩
              · rwa [Function.update_of_ne (before first), Function.update_of_ne (before second)]
              · intro name member last new
                obtain rfl := List.mem_singleton.mp new
                rw [Function.update_of_ne (before member), Function.update_self]
                exact (since name member).within

/-- Attributes are what their history says. A class has the tokens of all texts merged since it was
last removed, each once, and an id all texts that are not empty; any other name has the value of its
last change. Flags as classes and ids change nothing. The names stand in the order in which they have
come to be present, and no merge moves one. -/
theorem after_recounts (history : List AttributeChange) : (after history).Recounts history where
  classes := get?_after_of_textsOf rfl merge_flag_class fun _ => get?_merge_class
  ids := get?_after_of_textsOf rfl merge_flag_id fun _ => get?_merge_id
  others _ plain := get?_after plain
  present := mem_names (after history)
  flags _ gathers _ := if_pos gathers
  ordered := names_ordered history
  steady := names_merge (after history)

/-- A name that is removed and merged again stands last. -/
example : (after [.merge "title" (.text "x"), .merge "class" (.text "b  a b"), .remove "title",
    .merge "title" (.flag true), .merge "class" (.text "c a")]).entries =
    [("class", .text "b a c"), ("title", .flag true)] := by
  decide +kernel

end

end AttributeSet

end Haml
