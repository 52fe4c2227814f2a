import Haml.Context
import Mathlib.Data.List.Sort
/-! Dictionaries in order: the order of their keys is kept, and each is given by the values it has
for keys. So scopes can be merged into one that shows the same variables. -/

namespace Haml

namespace Dict

variable {α : Type} {d new : Dict α}

def Ordered (d : Dict α) : Prop := d.Pairwise fun a b => a.1 < b.1

theorem ordered_nil : Ordered ([] : Dict α) := List.Pairwise.nil

theorem mem_insert {key : String} {value : α} {entry : String × α}
    (member : entry ∈ d.insert key value) : entry = (key, value) ∨ entry ∈ d := by
  induction d with
  | nil => exact .inl (List.mem_singleton.mp member)
  | cons first rest ih =>
      unfold insert at member
      split at member
      · rcases List.mem_cons.mp member with here | later
        · exact .inl here
        · exact .inr (List.mem_cons_of_mem first later)
      · split at member
        · exact List.mem_cons.mp member
        · rcases List.mem_cons.mp member with here | later
          · exact .inr (here ▸ List.mem_cons_self ..)
          · exact (ih later).imp_right (List.mem_cons_of_mem first)

theorem Ordered.insert (ordered : d.Ordered) (key : String) (value : α) :
    (d.insert key value).Ordered := by
  induction d with
  | nil => exact List.pairwise_singleton ..
  | cons first rest ih =>
      obtain ⟨found, v⟩ := first
      obtain ⟨before, others⟩ := List.pairwise_cons.mp ordered
      rw [Dict.insert]
      by_cases same : found = key
      · subst same
        rw [if_pos rfl]
        exact List.pairwise_cons.mpr ⟨before, others⟩
      · rw [if_neg same]
        by_cases less : key < found
        · rw [if_pos less]
          refine List.pairwise_cons.mpr ⟨fun entry member => ?_, ordered⟩
          rcases List.mem_cons.mp member with rfl | later
          · exact less
          · exact String.lt_trans less (before entry later)
        · rw [if_neg less]
          refine List.pairwise_cons.mpr ⟨fun entry member => ?_, ih others⟩
          rcases mem_insert member with rfl | later
          · exact Std.lt_of_le_of_ne (String.not_lt.mp less) same
          · exact before entry later

theorem Ordered.merge (ordered : d.Ordered) (new : Dict α) : (d.merge new).Ordered := by
  induction new generalizing d with
  | nil => exact ordered
  | cons entry rest ih => exact ih (ordered.insert entry.1 entry.2)

theorem find?_eq_none {key : String} (absent : ∀ entry ∈ d, entry.1 ≠ key) : d.find? key = none := by
  induction d with
  | nil => rfl
  | cons first rest ih =>
      obtain ⟨here, others⟩ := List.forall_mem_cons.mp absent
      rw [find?, if_neg here]
      exact ih others

theorem Ordered.find?_of_mem (ordered : d.Ordered) {key : String} {value : α}
    (member : (key, value) ∈ d) : d.find? key = some value := by
  induction d with
  | nil => cases member
  | cons first rest ih =>
      obtain ⟨before, others⟩ := List.pairwise_cons.mp ordered
      rcases List.mem_cons.mp member with rfl | later
      · exact if_pos rfl
      · have less := before (key, value) later
        have other : first.1 ≠ key := fun same => String.lt_irrefl key (same ▸ less)
        rw [find?, if_neg other]
        exact ih others later

theorem Ordered.ext (ordered : d.Ordered) (other : new.Ordered)
    (same : ∀ key, d.find? key = new.find? key) : d = new := by
  have asymmetric : Std.Antisymm fun a b : String × α => a.1 < b.1 :=
    ⟨fun a b less greater => absurd greater (String.lt_asymm less)⟩
  have irreflexive : Std.Irrefl fun a b : String × α => a.1 < b.1 :=
    ⟨fun a => String.lt_irrefl a.1⟩
  refine List.Pairwise.eq_of_mem_iff ordered other fun entry => ⟨fun member => ?_, fun member => ?_⟩
  · exact mem_of_find? ((same entry.1).symm.trans (ordered.find?_of_mem member))
  · exact mem_of_find? ((same entry.1).trans (other.find?_of_mem member))

theorem find?_merge (d : Dict α) (ordered : new.Ordered) (key : String) :
    (d.merge new).find? key = (new.find? key).or (d.find? key) := by
  induction new generalizing d with
  | nil => rfl
  | cons entry rest ih =>
      obtain ⟨found, v⟩ := entry
      obtain ⟨before, others⟩ := List.pairwise_cons.mp ordered
      have merged : (d.merge ((found, v) :: rest)).find? key =
          (Dict.find? rest key).or ((d.insert found v).find? key) := ih (d.insert found v) others
      rw [merged, find?_insert, Dict.find?]
      by_cases same : found = key
      · have absent : Dict.find? rest key = none := by
          refine find?_eq_none fun entry member other => ?_
          have less := before entry member
          rw [same, other] at less
          exact String.lt_irrefl key less
        rw [if_pos same, if_pos same, absent]
        rfl
      · rw [if_neg same, if_neg same]

theorem Ordered.merge_nil (ordered : d.Ordered) : Dict.merge [] d = d := by
  refine (ordered_nil.merge d).ext ordered fun key => ?_
  rw [find?_merge [] ordered, Dict.find?, Option.or_none]

theorem Ordered.merge_insert (ordered : d.Ordered) (other : new.Ordered) (key : String) (value : α) :
    d.merge (new.insert key value) = (d.merge new).insert key value := by
  refine (ordered.merge _).ext ((ordered.merge new).insert key value) fun name => ?_
  rw [find?_merge d (other.insert key value), find?_insert, find?_insert, find?_merge d other]
  split
  · rfl
  · rfl

theorem Ordered.merge_merge (ordered : d.Ordered) {known : Dict α} (other : known.Ordered)
    (new : Dict α) : (d.merge known).merge new = d.merge (known.merge new) := by
  induction new generalizing known with
  | nil => rfl
  | cons entry rest ih =>
      have inserted := ih (other.insert entry.1 entry.2)
      rw [ordered.merge_insert other] at inserted
      exact inserted

/-- What is bound below a dictionary that lacks its key is bound beside it. -/
theorem Ordered.insert_merge (ordered : d.Ordered) (other : new.Ordered) {key : String}
    (absent : new.contains key = false) (value : α) :
    (d.insert key value).merge new = (d.merge new).insert key value := by
  refine ((ordered.insert key value).merge _).ext ((ordered.merge new).insert key value)
    fun name => ?_
  rw [find?_merge _ other, find?_insert, find?_insert, find?_merge d other]
  by_cases same : key = name
  · subst same
    have lacking : new.find? key = none :=
      Option.not_isSome_iff_eq_none.mp (Bool.eq_false_iff.mp absent)
    rw [if_pos rfl, if_pos rfl, lacking]
    rfl
  · rw [if_neg same, if_neg same]

theorem find?_merge_of_notMem (d : Dict α) {key : String} (absent : key ∉ new.keys) :
    (d.merge new).find? key = d.find? key := by
  induction new generalizing d with
  | nil => rfl
  | cons entry rest ih =>
      obtain ⟨other, later⟩ := List.ne_and_not_mem_of_not_mem_cons absent
      exact (ih (d.insert entry.1 entry.2) later).trans (find?_insert_of_ne (Ne.symm other))

theorem find?_merge_of_mem (d : Dict α) (apart : new.keys.Nodup) {key : String} {value : α}
    (member : (key, value) ∈ new) :
    (d.merge new).find? key = some value := by
  induction new generalizing d with
  | nil => cases member
  | cons entry rest ih =>
      obtain ⟨absent, others⟩ := List.nodup_cons.mp apart
      rcases List.mem_cons.mp member with rfl | later
      · exact (find?_merge_of_notMem _ absent).trans (find?_insert_self d key value)
      · exact ih (d.insert entry.1 entry.2) others later

theorem mem_of_mem_merge {d : Dict α} {entry : String × α} (member : entry ∈ d.merge new) :
    entry ∈ new ∨ entry ∈ d := by
  induction new generalizing d with
  | nil => exact .inr member
  | cons first rest ih =>
      rcases ih member with later | earlier
      · exact .inl (List.mem_cons_of_mem first later)
      · rcases mem_insert earlier with rfl | earlier
        · exact .inl (List.mem_cons_self ..)
        · exact .inr earlier

theorem mem_ofList (apart : new.keys.Nodup) {entry : String × α} :
    entry ∈ ofList new ↔ entry ∈ new := by
  refine ⟨fun member => (mem_of_mem_merge member).resolve_right List.not_mem_nil, fun member => ?_⟩
  exact mem_of_find? (find?_merge_of_mem [] apart member)

theorem contains_eq_find? (d : Dict α) (key : String) : d.contains key = (d.find? key).isSome := rfl

end Dict

namespace Context

open Dict

theorem bindAll_eq (c : Context) (entries : List (String × Value)) :
    c.bindAll entries = { c with inner := c.inner.merge entries } := by
  induction entries generalizing c with
  | nil => rfl
  | cons entry rest ih => exact ih (c.bind entry.1 entry.2)

theorem ordered_flatten (scopes : List Scope) : (flatten scopes).Ordered := by
  induction scopes with
  | nil => exact ordered_nil
  | cons scope rest ih => exact ih.merge scope

theorem find?_flatten {scopes : List Scope} (ordered : ∀ scope ∈ scopes, scope.Ordered)
    (name : String) :
    (flatten scopes).find? name = scopes.findSome? fun scope => scope.find? name := by
  induction scopes with
  | nil => rfl
  | cons scope rest ih =>
      obtain ⟨here, others⟩ := List.forall_mem_cons.mp ordered
      rw [flatten, find?_merge _ here, ih others, List.findSome?_cons]
      cases scope.find? name with
      | none => rfl
      | some v => rfl

theorem contains_flatten {scopes : List Scope} (ordered : ∀ scope ∈ scopes, scope.Ordered)
    (name : String) :
    (flatten scopes).contains name = scopes.any fun scope => scope.contains name := by
  rw [contains_eq_find?, find?_flatten ordered, List.isSome_findSome?]
  rfl

theorem ordered_assignIn {scopes : List Scope} (ordered : ∀ scope ∈ scopes, scope.Ordered)
    (name : String) (v : Value) : ∀ scope ∈ assignIn name v scopes, scope.Ordered := by
  induction scopes with
  | nil => exact nofun
  | cons scope rest ih =>
      obtain ⟨here, others⟩ := List.forall_mem_cons.mp ordered
      unfold assignIn
      split
      · exact List.forall_mem_cons.mpr ⟨here.insert name v, others⟩
      · exact List.forall_mem_cons.mpr ⟨here, ih others⟩

theorem flatten_assignIn {scopes : List Scope} (ordered : ∀ scope ∈ scopes, scope.Ordered)
    {name : String} (v : Value) (present : scopes.any (fun scope => scope.contains name) = true) :
    flatten (assignIn name v scopes) = (flatten scopes).insert name v := by
  induction scopes with
  | nil => cases present
  | cons scope rest ih =>
      obtain ⟨here, others⟩ := List.forall_mem_cons.mp ordered
      rw [assignIn]
      cases found : scope.contains name with
      | true =>
          rw [if_pos rfl, flatten, flatten]
          exact (ordered_flatten rest).merge_insert here name v
      | false =>
          rw [if_neg Bool.false_ne_true, flatten, flatten]
          rw [List.any_cons, found, Bool.false_or] at present
          rw [ih others present]
          exact (ordered_flatten rest).insert_merge here found v

theorem scopes_bind (c : Context) (name : String) (v : Value) :
    (c.bind name v).scopes = c.scopes.modifyHead fun scope => scope.insert name v := rfl

/-- An assignment changes the nearest scope that has the name, or else the innermost one. -/
theorem scopes_assign (c : Context) (name : String) (v : Value) : (c.assign name v).scopes =
    if c.scopes.any (fun scope => scope.contains name) then assignIn name v c.scopes
    else (c.bind name v).scopes := by
  have any : c.scopes.any (fun scope => scope.contains name) =
      (c.inner.contains name || c.outer.any fun scope => scope.contains name) := rfl
  have assigned : assignIn name v c.scopes =
      if c.inner.contains name then c.inner.insert name v :: c.outer
      else c.inner :: assignIn name v c.outer := rfl
  rw [any, assigned]
  unfold Context.assign scopes
  cases c.inner.contains name with
  | true => rfl
  | false =>
      cases c.outer.any fun scope => scope.contains name with
      | true => rfl
      | false => rfl

end Context

end Haml
