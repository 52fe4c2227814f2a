import Haml.Expr.Eval
import Haml.Proofs.Outcome
/-! Callables inside values: what is got out of values, and what operators make of them, holds no
callables but theirs. -/

namespace Haml

/-- Whether all callables in a value have counted at least `n` renders. -/
inductive Value.Counted (n : Nat) : Value → Prop
  | undefined : Counted n .undefined
  | null : Counted n .null
  | bool (b : Bool) : Counted n (.bool b)
  | int (i : Int) : Counted n (.int i)
  | float (x : Float) : Counted n (.float x)
  | text (s : String) (safe : Bool) : Counted n (.text s safe)
  | list {items : List Value} : (∀ v ∈ items, v.Counted n) → Counted n (.list items)
  | iter {items : List Value} (sized : Bool) :
      (∀ v ∈ items, v.Counted n) → Counted n (.iter items sized)
  | map {entries : List (Value × Value)} :
      (∀ entry ∈ entries, entry.1.Counted n) → (∀ entry ∈ entries, entry.2.Counted n) →
      Counted n (.map entries)
  | function (f : Function) : Counted n (.function f)
  | renderer {r : Renderer Value} : n ≤ r.depth → Counted n (.renderer r)

namespace Value

variable {n : Nat}

theorem Counted.mono {m : Nat} {v : Value} (counted : v.Counted n) (le : m ≤ n) : v.Counted m := by
  induction counted with
  | list _ ih => exact .list ih
  | iter sized _ ih => exact .iter sized ih
  | map _ _ keys values => exact .map keys values
  | renderer deep => exact .renderer (Nat.le_trans le deep)
  | undefined => exact .undefined
  | null => exact .null
  | bool b => exact .bool b
  | int i => exact .int i
  | float x => exact .float x
  | text s safe => exact .text s safe
  | function f => exact .function f

def CountedEntries (n : Nat) (entries : List (Value × Value)) : Prop :=
  (∀ entry ∈ entries, entry.1.Counted n) ∧ ∀ entry ∈ entries, entry.2.Counted n

theorem countedEntries_cons {k v : Value} {entries : List (Value × Value)} :
    CountedEntries n ((k, v) :: entries) ↔
      (k.Counted n ∧ v.Counted n) ∧ CountedEntries n entries := by
  simp only [CountedEntries, List.forall_mem_cons]
  exact and_and_and_comm

theorem countedEntries_insertEntry {key value : Value} {entries : List (Value × Value)}
    (keyCounted : key.Counted n) (valueCounted : value.Counted n)
    (counted : CountedEntries n entries) : CountedEntries n (insertEntry key value entries) := by
  induction entries with
  | nil => exact countedEntries_cons.mpr ⟨⟨keyCounted, valueCounted⟩, counted⟩
  | cons entry rest ih =>
      obtain ⟨here, others⟩ := countedEntries_cons.mp counted
      unfold insertEntry
      split
      · exact countedEntries_cons.mpr ⟨⟨keyCounted, valueCounted⟩, counted⟩
      · exact countedEntries_cons.mpr ⟨⟨here.1, valueCounted⟩, others⟩
      · exact countedEntries_cons.mpr ⟨here, ih others⟩

theorem countedEntries_append {xs ys : List (Value × Value)} (first : CountedEntries n xs)
    (second : CountedEntries n ys) : CountedEntries n (xs ++ ys) :=
  ⟨List.forall_mem_append.mpr ⟨first.1, second.1⟩, List.forall_mem_append.mpr ⟨first.2, second.2⟩⟩

theorem counted_map {entries : List (Value × Value)} (counted : CountedEntries n entries) :
    (map entries).Counted n :=
  .map counted.1 counted.2

theorem counted_ofEntries {entries : List (Value × Value)} (counted : CountedEntries n entries) :
    (ofEntries entries).Counted n := by
  refine counted_map (List.foldlRecOn entries _ ⟨nofun, nofun⟩ fun known here entry member => ?_)
  exact countedEntries_insertEntry (counted.1 entry member) (counted.2 entry member) here

/-! Access to parts. -/

theorem mem_of_atKey? {key v : Value} {entries : List (Value × Value)}
    (found : atKey? key entries = some v) : ∃ k, (k, v) ∈ entries := by
  induction entries with
  | nil => cases found
  | cons entry rest ih =>
      unfold atKey? at found
      split at found
      · cases found
        exact ⟨_, List.mem_cons_self ..⟩
      · obtain ⟨k, member⟩ := ih found
        exact ⟨k, List.mem_cons_of_mem _ member⟩

theorem counted_of_atKey? {key v : Value} {entries : List (Value × Value)}
    (counted : (map entries).Counted n) (found : atKey? key entries = some v) : v.Counted n := by
  obtain ⟨k, member⟩ := mem_of_atKey? found
  cases counted with
  | map _ values => exact values _ member

theorem counted_ofChars (cs : List Char) : ∀ v ∈ cs.map ofChar, v.Counted n := by
  intro v member
  obtain ⟨c, -, rfl⟩ := List.mem_map.mp member
  exact .text ..

theorem counted_getElem? {items : List Value} {i : Nat} {v : Value}
    (counted : ∀ v ∈ items, v.Counted n) (found : items[i]? = some v) : v.Counted n :=
  counted v (List.mem_of_getElem? found)

theorem counted_item? {v key part : Value} (counted : v.Counted n)
    (found : item? v key = some part) : part.Counted n := by
  cases counted with
  | map keys values => exact counted_of_atKey? (.map keys values) found
  | list items =>
      obtain ⟨i, -, here⟩ := Option.bind_eq_some_iff.mp found
      exact counted_getElem? items here
  | iter sized items =>
      obtain ⟨i, -, here⟩ := Option.bind_eq_some_iff.mp found
      exact counted_getElem? items here
  | text s safe =>
      obtain ⟨i, -, here⟩ := Option.bind_eq_some_iff.mp found
      obtain ⟨c, -, rfl⟩ := Option.map_eq_some_iff.mp here
      exact .text ..
  | _ => cases found

theorem getItem_counted {v : Value} (counted : v.Counted n) (key : Value) :
    Gives (Counted n) (v.getItem key) := by
  unfold getItem
  split
  · next found => exact .ok (counted_item? counted found)
  · split
    · exact .error _
    · exact .ok .undefined

theorem getAttr_counted {v : Value} (counted : v.Counted n) (name : String) :
    Gives (Counted n) (v.getAttr name) := by
  unfold getAttr
  split
  · cases found : atKey? (ofString name) _ with
    | none => exact .ok .undefined
    | some part => exact .ok (counted_of_atKey? counted found)
  · exact .error _
  · exact .ok .undefined

theorem getPath_counted {v : Value} (counted : v.Counted n) (path : String) :
    Gives (Counted n) (v.getPath path) := by
  refine .foldlM (fun v name _ here => ?_) counted
  split
  · exact getItem_counted here _
  · exact getItem_counted here _

theorem counted_items? {v : Value} {items : List Value} (counted : v.Counted n)
    (found : v.items? = some items) : ∀ item ∈ items, item.Counted n := by
  cases counted with
  | undefined | null | renderer =>
      cases found
      nofun
  | text s safe =>
      cases found
      exact counted_ofChars s.toList
  | list items =>
      cases found
      exact items
  | iter sized items =>
      cases found
      exact items
  | map keys values =>
      cases found
      exact List.forall_mem_map.mpr keys
  | _ => cases found

theorem items_counted {v : Value} (counted : v.Counted n) :
    Gives (fun items => ∀ item ∈ items, item.Counted n) v.items := by
  unfold Value.items
  split
  · next found => exact .ok (counted_items? counted found)
  · exact .error _

theorem mem_of_mem_everyNth {α : Type} {step skip : Nat} {xs : List α} {x : α}
    (member : x ∈ everyNth step skip xs) : x ∈ xs := by
  induction xs generalizing skip with
  | nil => simp [everyNth] at member
  | cons y ys ih =>
      cases skip with
      | zero =>
          rcases List.mem_cons.mp member with rfl | later
          · exact List.mem_cons_self ..
          · exact List.mem_cons_of_mem y (ih later)
      | succ skip => exact List.mem_cons_of_mem y (ih member)

theorem mem_of_mem_sliceItems {α : Type} {start stop : Option Int} {step : Int} {xs : List α}
    {x : α} (member : x ∈ sliceItems start stop step xs) : x ∈ xs := by
  unfold sliceItems at member
  split at member
  · exact List.mem_of_mem_drop (List.mem_of_mem_take (mem_of_mem_everyNth member))
  · obtain ⟨i, -, found⟩ := List.mem_filterMap.mp member
    exact List.mem_of_getElem? (Option.ite_none_right_eq_some.mp found).2

theorem slice_counted {v : Value} (counted : v.Counted n) (start stop step : Value) :
    Gives (Counted n) (v.slice start stop step) := by
  unfold slice
  refine .after fun start => .after fun stop => .after fun step => ?_
  have within {items : List Value} (all : ∀ v ∈ items, v.Counted n) :
      ∀ v ∈ sliceItems start stop (step.getD 1) items, v.Counted n :=
    fun v member => all v (mem_of_mem_sliceItems member)
  cases counted with
  | list items => exact Gives.ite (.error _) (.ok (.iter true (within items)))
  | iter sized items => exact Gives.ite (.error _) (.ok (.iter sized (within items)))
  | text => exact Gives.ite (.error _) (.ok (.text ..))
  | undefined => exact Gives.ite (.error _) (.ok (.list nofun))
  | null => exact Gives.ite (.error _) (.ok (.list nofun))
  | _ => exact Gives.ite (.error _) (.error _)

theorem counted_getD {v? : Option Value} (counted : ∀ v, v? = some v → v.Counted n) :
    (v?.getD .undefined).Counted n := by
  cases v? with
  | none => exact .undefined
  | some v => exact counted v rfl

/-! Arithmetic. -/

theorem bounded_counted (op : String) (a b : Value) (i : Int) :
    Gives (Counted n) (bounded op a b i) :=
  .ite (.ok (.int i)) (.error _)

theorem counted_sequence? {v : Value} {items : List Value} {sized : Bool} (counted : v.Counted n)
    (found : sequence? v = some (items, sized)) : ∀ item ∈ items, item.Counted n := by
  cases counted with
  | list items =>
      cases found
      exact items
  | iter sized items =>
      cases found
      exact items
  | _ => cases found

theorem add_counted {a b : Value} (left : a.Counted n) (right : b.Counted n) :
    Gives (Counted n) (a.add b) := by
  unfold add
  split
  · next first second =>
      refine .ok (.iter _ (List.forall_mem_append.mpr ⟨?_, ?_⟩))
      · exact counted_sequence? left first
      · exact counted_sequence? right second
  · split
    · exact bounded_counted _ _ _ _
    · exact .ok (.float _)
    · exact .ok (.text ..)
    · exact .error _

theorem sub_counted (a b : Value) : Gives (Counted n) (a.sub b) := by
  unfold sub
  split
  · exact bounded_counted _ _ _ _
  · exact .ok (.float _)
  · exact .error _

theorem times_counted {items : List Value} (counted : ∀ v ∈ items, v.Counted n) (sized : Bool)
    (count : Value) : Gives (Counted n) (mul.times items sized count) := by
  unfold mul.times
  split
  · refine .ok (.iter sized fun v member => ?_)
    obtain ⟨copy, copies, here⟩ := List.mem_flatten.mp member
    obtain rfl := (List.mem_replicate.mp copies).2
    exact counted v here
  · exact .error _

theorem mul_counted {a b : Value} (left : a.Counted n) (right : b.Counted n) :
    Gives (Counted n) (a.mul b) := by
  unfold mul
  split
  · split
    · exact .ok (.text ..)
    · exact .error _
  · split
    · exact .ok (.text ..)
    · exact .error _
  · split
    · next found => exact times_counted (counted_sequence? left found) _ _
    · next found _ => exact times_counted (counted_sequence? right found) _ _
    · split
      · exact bounded_counted _ _ _ _
      · exact .ok (.float _)
      · exact .error _

theorem div_counted (a b : Value) : Gives (Counted n) (a.div b) := by
  unfold div
  split
  · exact .ok (.float _)
  · exact .error _

theorem floorDiv_counted (a b : Value) : Gives (Counted n) (a.floorDiv b) := by
  unfold floorDiv
  split
  · exact .ite (.error _) (bounded_counted _ _ _ _)
  · exact .ok (.float _)
  · exact .error _

theorem mod_counted (a b : Value) : Gives (Counted n) (a.mod b) := by
  unfold mod
  split
  · exact .ite (.error _) (bounded_counted _ _ _ _)
  · exact .ok (.float _)
  · exact .error _

theorem pow_counted (a b : Value) : Gives (Counted n) (a.pow b) := by
  unfold pow
  split
  · refine .ite (.error _) ?_
    split
    · exact .ok (.int _)
    · exact .error _
  · exact .ok (.float _)
  · exact .error _

theorem neg_counted (v : Value) : Gives (Counted n) v.neg := by
  cases v with
  | int i => exact .ite (.ok (.int _)) (.error _)
  | float x => exact .ok (.float _)
  | _ => exact .error _

end Value

open Value

variable {n : Nat}

theorem BinaryOp.apply_counted (op : BinaryOp) {a b : Value} (left : a.Counted n)
    (right : b.Counted n) : Gives (Counted n) (op.apply a b) := by
  cases op with
  | add => exact add_counted left right
  | sub => exact sub_counted a b
  | mul => exact mul_counted left right
  | div => exact div_counted a b
  | floorDiv => exact floorDiv_counted a b
  | mod => exact mod_counted a b
  | pow => exact pow_counted a b
  | concat => exact .ok (.text ..)
  | isIn => exact (Gives.any _).map fun _ _ => .bool _
  | eq | ne | lt | le | gt | ge => exact .ok (.bool _)

end Haml
