import Haml.Attribute.Computed
import Haml.Buffer
import Haml.Proofs.Alike
import Haml.Proofs.Visible
/-! The angle brackets of an output: what adds some to it, and what adds none. -/

namespace Haml

open List (Forall₂)

namespace Markup

def isAngle (c : Char) : Bool := c == '<' || c == '>'

/-- The angle brackets of a text, in order. -/
def angles (cs : List Char) : List Char := cs.filter isAngle

@[simp]
theorem angles_nil : angles [] = [] := rfl

@[simp]
theorem angles_append (cs ds : List Char) : angles (cs ++ ds) = angles cs ++ angles ds :=
  List.filter_append cs ds

theorem angles_cons_of_not {c : Char} (plain : isAngle c = false) (cs : List Char) :
    angles (c :: cs) = angles cs :=
  List.filter_cons_of_neg (by simp [plain])

theorem angles_entity (c : Char) : angles (entity c) = [] := by
  unfold entity
  split
  · rfl
  · rfl
  · rfl
  · rfl
  · rfl
  · next less greater _ _ =>
      refine angles_cons_of_not ?_ []
      simp only [isAngle, Bool.or_eq_false_iff, beq_eq_false_iff_ne]
      exact ⟨less, greater⟩

theorem angles_escapeChars (cs : List Char) : angles (escapeChars cs) = [] := by
  induction cs with
  | nil => rfl
  | cons c cs ih =>
      rw [escapeChars, List.flatMap_cons, angles_append, angles_entity]
      exact ih

theorem not_isAngle_of_isBlank {c : Char} (blank : Text.isBlank c = true) : isAngle c = false := by
  by_cases less : c = '<'
  · subst less
    cases blank
  · by_cases greater : c = '>'
    · subst greater
      cases blank
    · simp [isAngle, less, greater]

theorem angles_visible (cs : List Char) : angles (Text.visible cs) = angles cs := by
  rw [angles, Text.visible, List.filter_filter]
  refine List.filter_congr fun c _ => ?_
  cases blank : Text.isBlank c with
  | true => rw [not_isAngle_of_isBlank blank, Bool.false_and]
  | false => exact Bool.and_true _

end Markup

namespace Buffer

open Markup

theorem angles_line (depth : Nat) (text : List Char) (b : Buffer) :
    angles (b.line depth text).text = angles b.text ++ angles text := by
  rw [← angles_visible, visible_line, angles_append, angles_visible, angles_visible]

theorem angles_lines (depth : Nat) (text : List Char) (b : Buffer) :
    angles (b.lines depth text).text = angles b.text ++ angles text := by
  rw [← angles_visible, visible_lines, angles_append, angles_visible, angles_visible]

end Buffer

def AttributeValue.Alike : AttributeValue → AttributeValue → Prop
  | .text _, .text _ => True
  | .flag a, .flag b => a = b
  | _, _ => False

theorem AttributeValue.Alike.same (v : AttributeValue) : v.Alike v := by
  cases v with
  | text value => trivial
  | flag value => exact rfl

namespace Attribute

theorem ofValue?_alike {v w : Value} (alike : v.Alike w) (name : String) :
    Option.Rel AttributeValue.Alike (ofValue? name v) (ofValue? name w) := by
  cases alike with
  | same =>
      cases ofValue? name v with
      | none => exact .none
      | some value => exact .some (.same value)
  | text => exact .some trivial
  | list => exact .some trivial
  | iter => exact .some trivial
  | map => exact .some trivial
  | renderer => exact .some trivial

end Attribute

namespace AttributeSet

open Markup

abbrev Entries := List (String × AttributeValue)

def isMarked (name : String) : Bool := name.toList.any isAngle

theorem angles_of_not_isMarked {name : String} (plain : isMarked name = false) :
    angles name.toList = [] := by
  exact List.filter_eq_nil_iff.mpr fun c member => List.any_eq_false.mp plain c member

def marked (entries : Entries) : Entries := entries.filter fun e => isMarked e.1

theorem marked_cons (name : String) (value : AttributeValue) (rest : Entries) :
    marked ((name, value) :: rest) =
      if isMarked name then (name, value) :: marked rest else marked rest :=
  List.filter_cons

/-- Sets of attributes whose marked names stand in the same order, with values of the same form. -/
def Alike (s t : AttributeSet) : Prop :=
  Forall₂ (fun a b => a.1 = b.1 ∧ a.2.Alike b.2) (marked s.entries) (marked t.entries)

theorem Alike.same (s : AttributeSet) : s.Alike s :=
  List.forall₂_same.mpr fun entry _ => ⟨rfl, .same entry.2⟩

section Writing

def mark : String × AttributeValue → List Char
  | (_, .flag false) => []
  | (name, _) => angles name.toList

theorem quoteFor_plain {wrapper : Char} (plain : isAngle wrapper = false) (text : List Char) :
    isAngle (quoteFor wrapper text) = false := by
  unfold quoteFor
  split
  · split <;> rfl
  · exact plain

theorem angles_writeEntry {wrapper : Char} (plain : isAngle wrapper = false)
    (entry : String × AttributeValue) : angles (writeEntry wrapper true entry) = mark entry := by
  obtain ⟨name, value⟩ := entry
  cases value with
  | text value =>
      have quote := quoteFor_plain plain (escapeChars value.toList)
      simp only [writeEntry, if_true, mark]
      rw [angles_append, angles_append, angles_cons_of_not rfl, angles_cons_of_not rfl,
        angles_cons_of_not quote, angles_escapeChars, angles_cons_of_not quote]
      simp
  | flag value =>
      cases value with
      | true => exact angles_cons_of_not rfl name.toList
      | false => rfl

theorem flatMap_mark_marked (entries : Entries) :
    (marked entries).flatMap mark = entries.flatMap mark := by
  induction entries with
  | nil => rfl
  | cons entry rest ih =>
      obtain ⟨name, value⟩ := entry
      rw [marked_cons, List.flatMap_cons]
      cases plain : isMarked name with
      | true => rw [if_pos rfl, List.flatMap_cons, ih]
      | false =>
          have unmarked : mark (name, value) = [] := by
            unfold mark
            split
            · rfl
            · next equal =>
                cases equal
                exact angles_of_not_isMarked plain
          rw [if_neg Bool.false_ne_true, unmarked, ih]
          rfl

theorem angles_write {wrapper : Char} (plain : isAngle wrapper = false) (s : AttributeSet) :
    angles (s.write wrapper true).toList = (marked s.entries).flatMap mark := by
  rw [write, String.toList_ofList, flatMap_mark_marked]
  induction s.entries with
  | nil => rfl
  | cons entry rest ih =>
      rw [List.flatMap_cons, angles_append, angles_writeEntry plain, ih, List.flatMap_cons]

theorem Alike.angles_write_eq {s t : AttributeSet} (alike : s.Alike t) {wrapper : Char}
    (plain : isAngle wrapper = false) :
    angles (s.write wrapper true).toList = angles (t.write wrapper true).toList := by
  rw [angles_write plain, angles_write plain]
  unfold Alike at alike
  generalize marked s.entries = xs at alike
  generalize marked t.entries = ys at alike
  induction alike with
  | nil => rfl
  | @cons a b _ _ first rest ih =>
      obtain ⟨name, v⟩ := a
      obtain ⟨other, w⟩ := b
      obtain ⟨rfl, value⟩ := first
      have same : mark (name, v) = mark (name, w) := by
        cases v with
        | text v =>
            cases w with
            | text w => rfl
            | flag w => cases value
        | flag v =>
            cases w with
            | text w => cases value
            | flag w =>
                cases value
                rfl
      rw [List.flatMap_cons, List.flatMap_cons, same, ih]

end Writing

section Merging

theorem marked_put (name : String) (value : AttributeValue) (entries : Entries) :
    marked (put name value entries) =
      if isMarked name then put name value (marked entries) else marked entries := by
  induction entries with
  | nil => exact marked_cons name value []
  | cons entry rest ih =>
      obtain ⟨n, v⟩ := entry
      by_cases same : n = name
      · subst same
        simp only [put, if_true, marked_cons]
        split
        · simp only [put, if_true]
        · rfl
      · simp only [put, same, if_false, marked_cons, ih]
        split <;> split <;> simp only [put, same, if_false]

theorem marked_put_of_plain {name : String} (plain : isMarked name = false)
    (value : AttributeValue) (entries : Entries) :
    marked (put name value entries) = marked entries := by
  rw [marked_put, plain]
  rfl

theorem forall₂_put {xs ys : Entries} {v w : AttributeValue} (name : String)
    (alike : Forall₂ (fun a b => a.1 = b.1 ∧ a.2.Alike b.2) xs ys) (value : v.Alike w) :
    Forall₂ (fun a b => a.1 = b.1 ∧ a.2.Alike b.2) (put name v xs) (put name w ys) := by
  induction alike with
  | nil => exact .cons ⟨rfl, value⟩ .nil
  | @cons a b _ _ first rest ih =>
      obtain ⟨n, v'⟩ := a
      obtain ⟨m, w'⟩ := b
      obtain ⟨rfl, value'⟩ := first
      simp only [put]
      split
      · exact .cons ⟨rfl, value⟩ rest
      · exact .cons ⟨rfl, value'⟩ ih

variable {s t : AttributeSet} {v w : AttributeValue}

theorem Alike.put (alike : s.Alike t) (name : String) (value : v.Alike w) :
    Alike ⟨put name v s.entries⟩ ⟨put name w t.entries⟩ := by
  unfold Alike at alike ⊢
  rw [marked_put, marked_put]
  split
  · exact forall₂_put name alike value
  · exact alike

theorem marked_mergeClass (s : AttributeSet) (value : String) :
    marked (s.mergeClass value).entries = marked s.entries := by
  unfold mergeClass
  simp only
  split
  · rfl
  · exact marked_put_of_plain rfl _ _

theorem marked_mergeId (s : AttributeSet) (value : String) :
    marked (s.mergeId value).entries = marked s.entries := by
  unfold mergeId
  split
  · rfl
  · exact marked_put_of_plain rfl _ _

theorem Alike.merge (alike : s.Alike t) (name : String) (value : v.Alike w) :
    (s.merge name v).Alike (t.merge name w) := by
  cases v with
  | text v =>
      cases w with
      | flag w => cases value
      | text w =>
          simp only [AttributeSet.merge]
          split
          · unfold Alike
            rw [marked_mergeClass, marked_mergeClass]
            exact alike
          · split
            · unfold Alike
              rw [marked_mergeId, marked_mergeId]
              exact alike
            · exact alike.put name trivial
  | flag v =>
      cases w with
      | text w => cases value
      | flag w =>
          cases value
          simp only [AttributeSet.merge]
          split
          · exact alike
          · exact alike.put name rfl

theorem marked_merge_of_plain {name : String} (plain : isMarked name = false)
    (s : AttributeSet) (value : AttributeValue) :
    marked (s.merge name value).entries = marked s.entries := by
  cases value with
  | text value =>
      simp only [AttributeSet.merge]
      split
      · exact marked_mergeClass s value
      · split
        · exact marked_mergeId s value
        · exact marked_put_of_plain plain _ _
  | flag value =>
      simp only [AttributeSet.merge]
      split
      · rfl
      · exact marked_put_of_plain plain _ _

theorem marked_erase (s : AttributeSet) (name : String) :
    marked (s.erase name).entries = (marked s.entries).filter fun e => e.1 ≠ name := by
  simp only [marked, erase, List.filter_filter, Bool.and_comm]

theorem Alike.erase (alike : s.Alike t) (name : String) : (s.erase name).Alike (t.erase name) := by
  unfold Alike at alike ⊢
  rw [marked_erase, marked_erase]
  refine List.rel_filter ?_ alike
  intro a b related
  simp only [related.1]

theorem Alike.mergeComputed (alike : s.Alike t) (name : String) {v w : Option AttributeValue}
    (value : Option.Rel AttributeValue.Alike v w) :
    (s.mergeComputed name v).Alike (t.mergeComputed name w) := by
  cases value with
  | some value => exact alike.merge name value
  | none =>
      simp only [AttributeSet.mergeComputed]
      split
      · exact alike
      · exact alike.erase name

theorem marked_mergeComputed_of_plain {name : String} (plain : isMarked name = false)
    (s : AttributeSet) (value : Option AttributeValue) :
    marked (s.mergeComputed name value).entries = marked s.entries := by
  cases value with
  | some value => exact marked_merge_of_plain plain s value
  | none =>
      simp only [AttributeSet.mergeComputed]
      split
      · rfl
      · rw [marked_erase, List.filter_eq_self]
        intro entry member
        have holds := (List.mem_filter.mp member).2
        simp only [ne_eq, decide_not, Bool.not_eq_true', decide_eq_false_iff_not]
        rintro rfl
        rw [plain] at holds
        cases holds

end Merging

end AttributeSet

end Haml
