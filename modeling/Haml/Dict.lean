/-! Dictionaries: entries with text keys, kept in increasing order of the keys. -/

namespace Haml

abbrev Dict (α : Type) := List (String × α)

namespace Dict

variable {α : Type}

def find? : Dict α → String → Option α
  | [], _ => none
  | (k, v) :: rest, key => if k = key then some v else find? rest key

def contains (d : Dict α) (key : String) : Bool := (d.find? key).isSome

def insert : Dict α → String → α → Dict α
  | [], key, value => [(key, value)]
  | (k, v) :: rest, key, value =>
      if k = key then (key, value) :: rest
      else if key < k then (key, value) :: (k, v) :: rest
      else (k, v) :: insert rest key value

def ofList (entries : List (String × α)) : Dict α :=
  entries.foldl (fun d (k, v) => d.insert k v) []

def keys (d : Dict α) : List String := d.map Prod.fst

def merge (d new : Dict α) : Dict α :=
  new.foldl (fun d (k, v) => d.insert k v) d

theorem find?_insert (d : Dict α) (key other : String) (value : α) :
    (d.insert key value).find? other = if key = other then some value else d.find? other := by
  induction d with
  | nil => simp [insert, find?]
  | cons entry rest ih =>
      obtain ⟨k, v⟩ := entry
      by_cases hk : k = key
      · subst hk
        by_cases ho : k = other <;> simp [insert, find?, ho]
      · by_cases hlt : key < k
        · simp [insert, find?, hk, hlt]
        · by_cases ho : k = other
          · subst ho
            simp [insert, find?, hk, hlt, Ne.symm hk]
          · simp [insert, find?, hk, hlt, ho, ih]

theorem find?_insert_self (d : Dict α) (key : String) (value : α) :
    (d.insert key value).find? key = some value := by
  simp [find?_insert]

theorem find?_insert_of_ne {d : Dict α} {key other : String} {value : α} (h : key ≠ other) :
    (d.insert key value).find? other = d.find? other := by
  simp [find?_insert, h]

theorem forall_insert {P : α → Prop} {d : Dict α} {key : String} {value : α}
    (all : ∀ entry ∈ d, P entry.2) (new : P value) : ∀ entry ∈ d.insert key value, P entry.2 := by
  induction d with
  | nil => exact List.forall_mem_singleton.mpr new
  | cons entry rest ih =>
      obtain ⟨here, others⟩ := List.forall_mem_cons.mp all
      unfold insert
      split
      · exact List.forall_mem_cons.mpr ⟨new, others⟩
      · split
        · exact List.forall_mem_cons.mpr ⟨new, all⟩
        · exact List.forall_mem_cons.mpr ⟨here, ih others⟩

theorem forall_merge {P : α → Prop} {d new : Dict α} (all : ∀ entry ∈ d, P entry.2)
    (others : ∀ entry ∈ new, P entry.2) : ∀ entry ∈ d.merge new, P entry.2 := by
  induction new generalizing d with
  | nil => exact all
  | cons entry rest ih =>
      obtain ⟨here, last⟩ := List.forall_mem_cons.mp others
      exact ih (forall_insert all here) last

theorem mem_of_find? {d : Dict α} {key : String} {value : α} (found : d.find? key = some value) :
    (key, value) ∈ d := by
  induction d with
  | nil => cases found
  | cons entry rest ih =>
      unfold find? at found
      split at found
      · next same =>
          cases found
          cases same
          exact List.mem_cons_self ..
      · exact List.mem_cons_of_mem entry (ih found)

end Dict

end Haml
