import Haml.Proofs.History
import Haml.Proofs.Interpolated
/-! Sequences as classes and ids: what comes of a sequence that is merged as one value, and of its
items merged one after another. -/

namespace Haml

namespace Text

theorem words_append_cons {c : Char} (blank : isBlank c = true) (cs rest : List Char) :
    words (cs ++ c :: rest) = words cs ++ words rest := by
  rw [words, List.splitOnP_append_cons cs rest blank, List.filter_append]
  rfl

end Text

namespace AttributeSet

section

variable {name : String} {value : AttributeValue} {entries : List (String × AttributeValue)}

theorem put_put (other : AttributeValue) :
    put name value (put name other entries) = put name value entries := by
  induction entries with
  | nil => simp only [put, if_true]
  | cons entry rest ih =>
      obtain ⟨n, v⟩ := entry
      by_cases here : n = name
      · simp only [put, if_pos here]
      · simp only [put, if_neg here, ih]

theorem put_of_find? (present : Dict.find? entries name = some value) :
    put name value entries = entries := by
  induction entries with
  | nil => cases present
  | cons entry rest ih =>
      obtain ⟨n, v⟩ := entry
      by_cases here : n = name
      · rw [Dict.find?, if_pos here] at present
        rw [put, if_pos here, Option.some.inj present]
      · rw [Dict.find?, if_neg here] at present
        rw [put, if_neg here, ih present]

end

theorem addTokens_append (tokens first second : List (List Char)) :
    addTokens tokens (first ++ second) = addTokens (addTokens tokens first) second :=
  List.foldl_append

theorem mem_addTokens {tokens new : List (List Char)} {token : List Char} :
    token ∈ addTokens tokens new ↔ token ∈ tokens ∨ token ∈ new := by
  induction new generalizing tokens with
  | nil => simp [addTokens]
  | cons first new ih =>
      rw [addTokens, List.foldl_cons, ← addTokens, ih]
      by_cases seen : first ∈ tokens
      · rw [if_pos seen, List.mem_cons]
        constructor
        · exact Or.imp_right .inr
        · rintro (old | rfl | later)
          · exact .inl old
          · exact .inl seen
          · exact .inr later
      · rw [if_neg seen, List.mem_append, List.mem_singleton, List.mem_cons, or_assoc]

variable (s : AttributeSet)

theorem words_mergeClass (text : String) :
    Text.words ((s.mergeClass text).textOf "class") =
      addTokens (Text.words (s.textOf "class")) (Text.words text.toList) := by
  rw [mergeClass]
  split
  · next absent =>
      have all := List.isEmpty_iff.mp absent
      have before : Text.words (s.textOf "class") = [] :=
        List.eq_nil_iff_forall_not_mem.mpr fun token member =>
          List.ne_nil_of_mem (mem_addTokens.mpr (.inl member)) all
      rw [all, before]
  · rw [textOf, get?_put, if_pos rfl]
    dsimp only
    rw [String.toList_ofList]
    refine Text.words_intercalate fun word member => ?_
    exact (mem_addTokens.mp member).elim Text.mem_words Text.mem_words

/-- Two texts between which white space stands are merged into a class like one after the other. -/
theorem mergeClass_append (a b : String) :
    s.mergeClass (a ++ " " ++ b) = (s.mergeClass a).mergeClass b := by
  have split : Text.words (a ++ " " ++ b).toList = Text.words a.toList ++ Text.words b.toList := by
    rw [String.toList_append, String.toList_append, List.append_assoc]
    exact Text.words_append_cons rfl a.toList b.toList
  rw [mergeClass, split, addTokens_append, mergeClass, words_mergeClass]
  let first := addTokens (Text.words (s.textOf "class")) (Text.words a.toList)
  by_cases nil : first = []
  · have kept : s.mergeClass a = s := by
      rw [mergeClass, if_pos (List.isEmpty_iff.mpr nil)]
    rw [kept]
  · have put : (s.mergeClass a).entries = put "class" (.text (String.ofList
        (List.intercalate [' '] first))) s.entries := by
      rw [mergeClass, if_neg (mt List.isEmpty_iff.mp nil)]
    obtain ⟨token, member⟩ := List.exists_mem_of_ne_nil first nil
    have more : ¬ (addTokens first (Text.words b.toList)).isEmpty :=
      fun empty => List.ne_nil_of_mem (mem_addTokens.mpr (.inl member)) (List.isEmpty_iff.mp empty)
    rw [if_neg more, if_neg more, put, put_put]

theorem mergeClass_intercalate {texts : List String} (filled : texts ≠ []) :
    s.mergeClass (" ".intercalate texts) = texts.foldl mergeClass s := by
  induction texts generalizing s with
  | nil => exact absurd rfl filled
  | cons text rest ih =>
      cases rest with
      | nil => rw [String.intercalate_singleton, List.foldl_cons, List.foldl_nil]
      | cons next rest =>
          rw [String.intercalate_cons_cons, mergeClass_append, ih _ (List.cons_ne_nil _ _)]
          rfl

theorem mergeClass_empty (history : List AttributeChange) :
    (after history).mergeClass "" = after history := by
  have classes := (after_recounts history).classes
  rw [mergeClass, words_textOf classes]
  have same : addTokens (tokensOf (textsOf "class" history)).eraseDups (Text.words "".toList) =
      (tokensOf (textsOf "class" history)).eraseDups := rfl
  rw [same]
  split
  · rfl
  · next filled =>
      have present := mt (eraseDups_eq_nil_iff _).mpr (mt List.isEmpty_iff.mpr filled)
      rw [classOf, if_neg present] at classes
      rw [put_of_find? classes]

def joinId (present text : String) : String :=
  if text = "" then present
  else if present = "" then text
  else present ++ "-" ++ text

theorem joinId_empty (present : String) : joinId present "" = present := if_pos rfl

theorem joinId_inj (present : String) {a b : String} (same : joinId present a = joinId present b) :
    a = b := by
  have longer {text : String} (filled : text ≠ "") : joinId present text ≠ present := by
    rw [joinId, if_neg filled]
    split
    · next absent => exact fun eq => filled (eq.trans absent)
    · intro eq
      have lengths := congrArg String.length eq
      have dash : "-".length = 1 := rfl
      rw [String.length_append, String.length_append, dash] at lengths
      omega
  by_cases first : a = ""
  · by_cases second : b = ""
    · rw [first, second]
    · rw [first, joinId_empty] at same
      exact absurd same.symm (longer second)
  · by_cases second : b = ""
    · rw [second, joinId_empty] at same
      exact absurd same (longer first)
    · rw [joinId, joinId, if_neg first, if_neg second] at same
      split at same
      · exact same
      · exact String.append_right_inj _ |>.mp same

theorem joinId_joinId (present : String) {a b : String} (first : a ≠ "") (second : b ≠ "") :
    joinId (joinId present a) b = joinId present (a ++ "-" ++ b) := by
  have both : a ++ "-" ++ b ≠ "" := by simp [String.append_eq_empty_iff]
  by_cases absent : present = ""
  · simp [joinId, first, second, absent, both]
  · simp [joinId, first, second, absent, String.append_assoc]

theorem mergeId_of_ne {text : String} (filled : text ≠ "") :
    s.mergeId text =
      ⟨put "id" (.text (joinId (String.ofList (s.textOf "id")) text)) s.entries⟩ := by
  rw [mergeId, if_neg (mt String.isEmpty_iff.mp filled), joinId, if_neg filled]
  simp only [String.isEmpty_iff]

theorem ofList_textOf_mergeId (text : String) :
    String.ofList ((s.mergeId text).textOf "id") =
      joinId (String.ofList (s.textOf "id")) text := by
  by_cases empty : text = ""
  · rw [empty, joinId_empty]
    rfl
  · rw [mergeId_of_ne s empty, textOf, get?_put, if_pos rfl]
    exact String.ofList_toList

theorem mergeId_inj (a b : String) : s.mergeId a = s.mergeId b ↔ a = b := by
  refine ⟨fun same => joinId_inj (String.ofList (s.textOf "id")) ?_, congrArg s.mergeId⟩
  rw [← ofList_textOf_mergeId, same, ofList_textOf_mergeId]

/-- Two texts that are not empty are merged into an id like one after the other. -/
theorem mergeId_append {a b : String} (first : a ≠ "") (second : b ≠ "") :
    s.mergeId (a ++ "-" ++ b) = (s.mergeId a).mergeId b := by
  have both : a ++ "-" ++ b ≠ "" := by simp [String.append_eq_empty_iff]
  rw [mergeId_of_ne s both, mergeId_of_ne _ second, ofList_textOf_mergeId,
    joinId_joinId _ first second, mergeId_of_ne s first, put_put]

/-- Texts are merged into an id like those of them that are not empty, joined by dashes. -/
theorem foldl_mergeId (texts : List String) :
    texts.foldl mergeId s = s.mergeId ("-".intercalate (filledOf texts)) := by
  induction texts using List.reverseRecOn with
  | nil => rfl
  | append_singleton texts text ih =>
      rw [List.foldl_append, ih, filledOf_concat, List.foldl_cons, List.foldl_nil]
      by_cases empty : text = ""
      · rw [if_pos empty, List.append_nil, empty]
        rfl
      · rw [if_neg empty]
        by_cases blank : filledOf texts = []
        · rw [blank, String.intercalate_nil, List.nil_append, String.intercalate_singleton]
          rfl
        · rw [String.intercalate_append_of_ne_nil blank (List.cons_ne_nil _ _),
            String.intercalate_singleton, mergeId_append s (intercalate_ne_empty blank) empty]

theorem length_intercalate_dash (texts : List String) :
    ("-".intercalate texts).length =
      (texts.flatMap String.toList).length + (texts.length - 1) := by
  induction texts with
  | nil => rfl
  | cons text rest ih =>
      cases rest with
      | nil =>
          rw [String.intercalate_singleton, List.flatMap_singleton, String.length_toList]
          rfl
      | cons next rest =>
          have dash : "-".length = 1 := rfl
          have first : ((text :: next :: rest).flatMap String.toList).length =
              text.length + ((next :: rest).flatMap String.toList).length := by
            rw [List.flatMap_cons, List.length_append, String.length_toList]
          rw [String.intercalate_cons_cons, String.length_append, String.length_append, ih, dash,
            first]
          simp only [List.length_cons]
          omega

theorem flatMap_filledOf (texts : List String) :
    (filledOf texts).flatMap String.toList = texts.flatMap String.toList := by
  induction texts with
  | nil => rfl
  | cons text rest ih =>
      by_cases empty : text = ""
      · simpa [filledOf, empty] using ih
      · simpa [filledOf, empty] using ih

/-- Texts joined by dashes are the same without the empty ones exactly if there are none of those,
or one that is all there is. -/
theorem intercalate_filledOf_iff (texts : List String) :
    "-".intercalate texts = "-".intercalate (filledOf texts) ↔ "" ∉ texts ∨ texts = [""] := by
  constructor
  · intro same
    have lengths := congrArg String.length same
    rw [length_intercalate_dash, length_intercalate_dash, flatMap_filledOf] at lengths
    have fewer : (filledOf texts).length ≤ texts.length := List.length_filter_le ..
    -- As many dashes are left: no text is dropped, or the only one.
    rcases (by omega : (filledOf texts).length = texts.length ∨
      texts.length = 1 ∧ (filledOf texts).length = 0) with all | ⟨single, dropped⟩
    · refine .inl fun member => ?_
      have kept := List.filter_eq_self.mp (List.filter_sublist.eq_of_length all) "" member
      exact absurd rfl (of_decide_eq_true kept)
    · obtain ⟨text, rfl⟩ := List.length_eq_one_iff.mp single
      refine .inr (congrArg (fun text => [text]) (not_not.mp fun filled => ?_))
      have kept : filledOf [text] = [text] := by simp [filledOf, filled]
      rw [kept] at dropped
      exact absurd dropped Nat.one_ne_zero
  · rintro (filled | rfl)
    · rw [filledOf, List.filter_eq_self.mpr]
      intro text member
      refine decide_eq_true ?_
      rintro rfl
      exact filled member
    · rfl

/-- A sequence of texts and of absent values comes to the same class as one value as its items do
one after another, whatever the class has been. It comes to the same id exactly if none of the texts
is empty, or one that is empty is the only one: the dashes around an empty text are kept. -/
theorem mergeComputed_sequence (history : List AttributeChange) {items : List Value}
    (each : ∀ item ∈ items, item.isAbsent = true ∨ ∃ text safe, item = .text text safe) {v : Value}
    (sequence : v = .list items ∨ ∃ sized, v = .iter items sized) :
    let s := after history
    let shown := items.filter fun item => !item.isAbsent
    let whole (name : String) := s.mergeComputed name (Attribute.ofValue? name v)
    let single (name : String) := shown.foldl
      (fun s item => s.mergeComputed name (Attribute.ofValue? name item)) s
    whole "class" = single "class" ∧
      (whole "id" = single "id" ↔ "" ∉ shown.map Value.display ∨ shown.map Value.display = [""]) := by
  intro s shown whole single
  have joined (name : String) : whole name = s.merge name (Attribute.joined name items) := by
    rcases sequence with rfl | ⟨sized, rfl⟩ <;> rfl
  have texts : ∀ item ∈ shown, ∃ text safe, item = .text text safe := by
    intro item member
    obtain ⟨among, present⟩ := List.mem_filter.mp member
    exact (each item among).resolve_left (by simpa using present)
  have classes : single "class" = (shown.map Value.display).foldl mergeClass s := by
    rw [List.foldl_map]
    refine List.foldl_ext _ _ _ fun s item member => ?_
    obtain ⟨text, safe, rfl⟩ := texts item member
    rfl
  have ids : single "id" = (shown.map Value.display).foldl mergeId s := by
    rw [List.foldl_map]
    refine List.foldl_ext _ _ _ fun s item member => ?_
    obtain ⟨text, safe, rfl⟩ := texts item member
    rfl
  constructor
  · have merged : whole "class" = s.mergeClass (" ".intercalate (shown.map Value.display)) :=
      joined "class"
    rw [merged, classes]
    by_cases empty : shown.map Value.display = []
    · rw [empty]
      exact mergeClass_empty history
    · exact mergeClass_intercalate s empty
  · have merged : whole "id" = s.mergeId ("-".intercalate (shown.map Value.display)) :=
      joined "id"
    rw [merged, ids, foldl_mergeId, mergeId_inj]
    exact intercalate_filledOf_iff _

theorem mergeComputed_sequence_gap :
    let items : List Value := [.ofString "a", .null, .ofString "", .ofString "b  a"]
    let s := after [.merge "id" (.text "x"), .merge "class" (.text "b")]
    let shown := items.filter fun item => !item.isAbsent
    let whole (name : String) := s.mergeComputed name (Attribute.ofValue? name (.list items))
    let single (name : String) := shown.foldl
      (fun s item => s.mergeComputed name (Attribute.ofValue? name item)) s
    (∀ item ∈ items, item.isAbsent = true ∨ ∃ text safe, item = .text text safe) ∧
      whole "class" = single "class" ∧ whole "id" ≠ single "id" := by
  intro items s shown whole single
  have each : ∀ item ∈ items, item.isAbsent = true ∨ ∃ text safe, item = .text text safe := by
    intro item member
    simp only [items, List.mem_cons, List.not_mem_nil, or_false] at member
    rcases member with rfl | rfl | rfl | rfl
    · exact .inr ⟨"a", false, rfl⟩
    · exact .inl rfl
    · exact .inr ⟨"", false, rfl⟩
    · exact .inr ⟨"b  a", false, rfl⟩
  obtain ⟨classes, ids⟩ := mergeComputed_sequence
    [.merge "id" (.text "x"), .merge "class" (.text "b")] each (.inl rfl)
  refine ⟨each, classes, mt ids.mp ?_⟩
  have texts : shown.map Value.display = ["a", "", "b  a"] := by decide +kernel
  rw [texts]
  decide

end AttributeSet

/-- A dash is written on both sides of an empty text in a sequence, and none for one that is merged
on its own. -/
theorem Template.id_gap :
    let items : List Value := [.ofString "a", .ofString "", .ofString "b"]
    items.foldl (fun s item => s.mergeComputed "id" (Attribute.ofValue? "id" item))
        AttributeSet.empty =
      ⟨[("id", .text "a-b")]⟩ ∧
    AttributeSet.empty.mergeComputed "id" (Attribute.ofValue? "id" (.list items)) =
      ⟨[("id", .text "a--b")]⟩ ∧
    (Template.compile "%p\x7b:id => x\x7d" .standard).map
        (fun t => (t.run .variables ((Context.new .echo).bind "x" (.list items))).1) =
      .ok (.ok "<p id='a--b'></p>\n") := by
  decide +kernel

end Haml
