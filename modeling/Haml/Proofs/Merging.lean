import Haml.Attribute.Set
import Mathlib.Data.List.Induction
import Mathlib.Data.List.ReduceOption
/-! Merging: the attributes that entries come to, where an entry without value is left out, and
where it takes the value before it back. -/

namespace Haml.AttributeSet

/-- Whether values of this name are added to those before them. -/
abbrev Accumulates (name : String) : Prop := name = "class" ∨ name = "id"

section

variable {s t : AttributeSet} {name other : String}

theorem get?_put (s : AttributeSet) (name other : String) (value : AttributeValue) :
    get? ⟨put name value s.entries⟩ other = if name = other then some value else s.get? other :=
  find?_put name other value s.entries

theorem get?_merge (plain : ¬ Accumulates name) (s : AttributeSet) (value : AttributeValue) :
    (s.merge name value).get? name = some value := by
  obtain ⟨notClass, notId⟩ := not_or.mp plain
  cases value with
  | text value => rw [merge, if_neg notClass, if_neg notId, get?_put, if_pos rfl]
  | flag value => rw [merge, if_neg plain, get?_put, if_pos rfl]

theorem get?_mergeClass_of_ne (apart : "class" ≠ other) (s : AttributeSet) (value : String) :
    (s.mergeClass value).get? other = s.get? other := by
  unfold mergeClass
  simp only
  split
  · rfl
  · rw [get?_put, if_neg apart]

theorem get?_mergeId_of_ne (apart : "id" ≠ other) (s : AttributeSet) (value : String) :
    (s.mergeId value).get? other = s.get? other := by
  unfold mergeId
  split
  · rfl
  · rw [get?_put, if_neg apart]

theorem get?_merge_of_ne (apart : name ≠ other) (s : AttributeSet) (value : AttributeValue) :
    (s.merge name value).get? other = s.get? other := by
  cases value with
  | text value =>
      by_cases isClass : name = "class"
      · subst isClass
        exact get?_mergeClass_of_ne apart s value
      by_cases isId : name = "id"
      · subst isId
        exact get?_mergeId_of_ne apart s value
      · rw [merge, if_neg isClass, if_neg isId, get?_put, if_neg apart]
  | flag value =>
      rw [merge]
      split
      · rfl
      · rw [get?_put, if_neg apart]

theorem textOf_congr (same : s.get? name = t.get? name) : s.textOf name = t.textOf name := by
  rw [textOf, textOf, same]

theorem get?_merge_congr (same : s.get? other = t.get? other) (name : String)
    (value : AttributeValue) :
    (s.merge name value).get? other = (t.merge name value).get? other := by
  by_cases here : name = other
  · subst here
    by_cases plain : Accumulates name
    · cases value with
      | flag value => rwa [merge, merge, if_pos plain, if_pos plain]
      | text value =>
          have text := textOf_congr same
          rcases plain with rfl | rfl
          · simp only [merge, if_true, mergeClass, text]
            split
            · exact same
            · rw [get?_put, get?_put]
              rfl
          · simp only [merge, if_true, mergeId, text, if_neg (show "id" ≠ "class" by decide)]
            split
            · exact same
            · rw [get?_put, get?_put]
              rfl
    · rw [get?_merge plain, get?_merge plain]
  · rw [get?_merge_of_ne here, get?_merge_of_ne here, same]

theorem find?_filter (entries : List (String × AttributeValue)) (name other : String) :
    Dict.find? (entries.filter fun (n, _) => n ≠ name) other =
      if name = other then none else Dict.find? entries other := by
  induction entries with
  | nil => simp [Dict.find?]
  | cons entry rest ih =>
      obtain ⟨n, v⟩ := entry
      by_cases gone : n = name
      · subst gone
        by_cases here : n = other <;> simp_all [Dict.find?]
      · by_cases here : n = other
        · subst here
          simp [Dict.find?, gone, Ne.symm gone]
        · simp_all [Dict.find?]

theorem get?_erase (s : AttributeSet) (name other : String) :
    (s.erase name).get? other = if name = other then none else s.get? other :=
  find?_filter s.entries name other

theorem ne_of_find?_eq_none {entries : List (String × AttributeValue)}
    (absent : Dict.find? entries name = none) : ∀ entry ∈ entries, entry.1 ≠ name := by
  induction entries with
  | nil => exact List.forall_mem_nil _
  | cons entry rest ih =>
      obtain ⟨n, v⟩ := entry
      rw [Dict.find?] at absent
      split at absent
      · cases absent
      · next other => exact List.forall_mem_cons.mpr ⟨other, ih absent⟩

theorem erase_eq_self (absent : s.get? name = none) : s.erase name = s := by
  have kept : s.entries.filter (fun (n, _) => n ≠ name) = s.entries :=
    List.filter_eq_self.mpr fun entry member =>
      decide_eq_true (ne_of_find?_eq_none absent entry member)
  rw [erase, kept]

end

abbrev Stated := List (String × Option AttributeValue)

def mergeKnown (s : AttributeSet) (entry : String × Option AttributeValue) : AttributeSet :=
  match entry.2 with
  | some value => s.merge entry.1 value
  | none => s

/-- The attributes of entries that are left out if they have no value. -/
def known (entries : Stated) : AttributeSet := entries.foldl mergeKnown .empty

/-- The attributes of entries that take the value before them back if they have none. -/
def late (entries : Stated) : AttributeSet :=
  entries.foldl (fun s entry => s.mergeComputed entry.1 entry.2) .empty

def valuesOf (name : String) (entries : Stated) : List (Option AttributeValue) :=
  (entries.filter fun entry => entry.1 = name).map (·.2)

def Withdrawn (name : String) (entries : Stated) : Prop :=
  ¬ Accumulates name ∧ (valuesOf name entries).getLast? = some none ∧
    ∃ value ∈ valuesOf name entries, value ≠ none

def Keeps (earlier entry : String × Option AttributeValue) : Prop :=
  earlier.1 = entry.1 → entry.2 = none → earlier.2 = none ∨ Accumulates entry.1

instance (earlier entry : String × Option AttributeValue) : Decidable (Keeps earlier entry) :=
  inferInstanceAs (Decidable (_ → _ → _))

section

variable (entries : Stated) (entry : String × Option AttributeValue) {name : String}

theorem known_concat : known (entries ++ [entry]) = (known entries).mergeKnown entry := by
  rw [known, List.foldl_append]
  rfl

theorem late_concat :
    late (entries ++ [entry]) = (late entries).mergeComputed entry.1 entry.2 := by
  rw [late, List.foldl_append]
  rfl

theorem valuesOf_concat (name : String) : valuesOf name (entries ++ [entry]) =
    valuesOf name entries ++ if entry.1 = name then [entry.2] else [] := by
  rw [valuesOf, List.filter_append, List.map_append, ← valuesOf]
  by_cases here : entry.1 = name <;> simp [here]

theorem mem_valuesOf {value : Option AttributeValue} :
    value ∈ valuesOf name entries ↔ (name, value) ∈ entries := by
  simp [valuesOf]

/-- An entry that is left out changes nothing, so an attribute has the last value there is. -/
theorem get?_known (plain : ¬ Accumulates name) :
    (known entries).get? name = (valuesOf name entries).reduceOption.getLast? := by
  induction entries using List.reverseRecOn with
  | nil => rfl
  | append_singleton entries entry ih =>
      obtain ⟨n, value⟩ := entry
      rw [known_concat, valuesOf_concat, List.reduceOption_append]
      cases value with
      | none => by_cases here : n = name <;> simp [mergeKnown, here, ih, List.reduceOption]
      | some value =>
          by_cases here : n = name
          · subst here
            simp [mergeKnown, get?_merge plain, List.reduceOption]
          · simp [mergeKnown, get?_merge_of_ne here, here, ih, List.reduceOption]

/-- The last entry of a name says what its attribute is. -/
theorem get?_late (plain : ¬ Accumulates name) :
    (late entries).get? name = (valuesOf name entries).getLast?.join := by
  induction entries using List.reverseRecOn with
  | nil => rfl
  | append_singleton entries entry ih =>
      obtain ⟨n, value⟩ := entry
      rw [late_concat, valuesOf_concat]
      by_cases here : n = name
      · subst here
        cases value with
        | none =>
            have erased : (late entries).mergeComputed n none = (late entries).erase n :=
              if_neg plain
            simp [erased, get?_erase]
        | some value => simp [mergeComputed, get?_merge plain]
      · cases value with
        | none =>
            by_cases gathers : Accumulates n
            · have same : (late entries).mergeComputed n none = late entries := if_pos gathers
              simp [same, here, ih]
            · have erased : (late entries).mergeComputed n none = (late entries).erase n :=
                if_neg gathers
              simp [erased, get?_erase, here, ih]
        | some value => simp [mergeComputed, get?_merge_of_ne here, here, ih]

theorem get?_late_of_accumulates (gathers : Accumulates name) :
    (late entries).get? name = (known entries).get? name := by
  induction entries using List.reverseRecOn with
  | nil => rfl
  | append_singleton entries entry ih =>
      obtain ⟨n, value⟩ := entry
      rw [late_concat, known_concat]
      cases value with
      | some value => exact get?_merge_congr ih n value
      | none =>
          by_cases same : Accumulates n
          · have kept : (late entries).mergeComputed n none = late entries := if_pos same
            rw [kept]
            exact ih
          · have apart : n ≠ name := by
              rintro rfl
              exact same gathers
            have erased : (late entries).mergeComputed n none = (late entries).erase n :=
              if_neg same
            rw [erased, get?_erase, if_neg apart]
            exact ih

end

theorem getLast?_reduceOption_iff (values : List (Option AttributeValue)) :
    values.reduceOption.getLast? = values.getLast?.join ↔
      ¬ (values.getLast? = some none ∧ ∃ value ∈ values, value ≠ none) := by
  rcases List.eq_nil_or_concat values with rfl | ⟨before, last, rfl⟩
  · simp [List.reduceOption]
  · rw [List.concat_eq_append, List.reduceOption_append]
    cases last with
    | some value => simp [List.reduceOption]
    | none =>
        simp [List.reduceOption]

/-- Both ways give an attribute the same value exactly if its last entry takes none back. -/
theorem get?_known_eq_late_iff (entries : Stated) (name : String) :
    (known entries).get? name = (late entries).get? name ↔ ¬ Withdrawn name entries := by
  by_cases gathers : Accumulates name
  · simp [get?_late_of_accumulates entries gathers, Withdrawn, gathers]
  · rw [get?_known entries gathers, get?_late entries gathers, getLast?_reduceOption_iff, Withdrawn]
    exact not_congr (and_iff_right gathers).symm

theorem late_eq_known {entries : Stated} (keeps : entries.Pairwise Keeps) :
    late entries = known entries := by
  induction entries using List.reverseRecOn with
  | nil => rfl
  | append_singleton entries entry ih =>
      obtain ⟨before, -, last⟩ := List.pairwise_append.mp keeps
      obtain ⟨n, value⟩ := entry
      rw [late_concat, known_concat, ih before]
      cases value with
      | some value => rfl
      | none =>
          by_cases gathers : Accumulates n
          · exact if_pos gathers
          · have absent : (known entries).get? n = none := by
              rw [get?_known entries gathers, List.getLast?_eq_none_iff]
              refine List.eq_nil_iff_forall_not_mem.mpr fun value member => ?_
              have earlier := mem_valuesOf entries |>.mp (List.reduceOption_mem_iff.mp member)
              rcases last _ earlier _ (List.mem_singleton_self _) rfl rfl with given | gathered
              · cases given
              · exact gathers gathered
            have erased : (known entries).mergeComputed n none = (known entries).erase n :=
              if_neg gathers
            rw [erased, erase_eq_self absent]
            rfl

end Haml.AttributeSet
