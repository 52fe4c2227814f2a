import Haml.Expr.Eval
import Haml.Proofs.Outcome
/-! Deepened values: how many renders the callables in values have counted shows in nothing that is
got out of the values or that operators make of them. -/

namespace Haml

namespace Value

mutual

/-- A value whose callables have all counted `k` renders more. -/
def deepen (k : Nat) : Value → Value
  | undefined => undefined
  | null => null
  | bool b => bool b
  | int n => int n
  | float x => float x
  | text s safe => text s safe
  | list items => list (deepenAll k items)
  | iter items sized => iter (deepenAll k items) sized
  | map entries => map (deepenEntries k entries)
  | function f => function f
  | renderer ⟨dialect, depth, partials, bindings⟩ =>
      renderer ⟨dialect, depth + k, partials, deepenBindings k bindings⟩

def deepenAll (k : Nat) : List Value → List Value
  | [] => []
  | v :: vs => deepen k v :: deepenAll k vs

def deepenEntries (k : Nat) : List (Value × Value) → List (Value × Value)
  | [] => []
  | (key, v) :: entries => (deepen k key, deepen k v) :: deepenEntries k entries

def deepenBindings (k : Nat) : List (String × Value) → List (String × Value)
  | [] => []
  | (name, v) :: bindings => (name, deepen k v) :: deepenBindings k bindings

end

def deepenEntry (k : Nat) (entry : Value × Value) : Value × Value :=
  (entry.1.deepen k, entry.2.deepen k)

def deepenBinding (k : Nat) (binding : String × Value) : String × Value :=
  (binding.1, binding.2.deepen k)

variable {k : Nat}

theorem deepenAll_eq_map (items : List Value) : deepenAll k items = items.map (deepen k) := by
  induction items with
  | nil => rfl
  | cons v vs ih => rw [deepenAll, ih, List.map_cons]

theorem deepenEntries_eq_map (entries : List (Value × Value)) :
    deepenEntries k entries = entries.map (deepenEntry k) := by
  induction entries with
  | nil => rfl
  | cons entry rest ih =>
      rw [deepenEntries, ih, List.map_cons]
      rfl

theorem deepenBindings_eq_map (bindings : List (String × Value)) :
    deepenBindings k bindings = bindings.map (deepenBinding k) := by
  induction bindings with
  | nil => rfl
  | cons binding rest ih =>
      rw [deepenBindings, ih, List.map_cons]
      rfl

@[simp]
theorem deepen_list (items : List Value) : (list items).deepen k = list (items.map (deepen k)) := by
  rw [deepen, deepenAll_eq_map]

@[simp]
theorem deepen_iter (items : List Value) (sized : Bool) :
    (iter items sized).deepen k = iter (items.map (deepen k)) sized := by
  rw [deepen, deepenAll_eq_map]

@[simp]
theorem deepen_map (entries : List (Value × Value)) :
    (map entries).deepen k = map (entries.map (deepenEntry k)) := by
  rw [deepen, deepenEntries_eq_map]

end Value

def Renderer.deepen (k : Nat) (r : Renderer Value) : Renderer Value :=
  ⟨r.dialect, r.depth + k, r.partials, r.bindings.map (Value.deepenBinding k)⟩

namespace Value

variable {k : Nat}

@[simp]
theorem deepen_renderer (r : Renderer Value) :
    (renderer r).deepen k = renderer (r.deepen k) := by
  rw [deepen, deepenBindings_eq_map]
  rfl

@[simp]
theorem deepen_undefined : undefined.deepen k = undefined := rfl

@[simp]
theorem deepen_null : null.deepen k = null := rfl

@[simp]
theorem deepen_bool (b : Bool) : (bool b).deepen k = bool b := rfl

@[simp]
theorem deepen_int (n : Int) : (int n).deepen k = int n := rfl

@[simp]
theorem deepen_float (x : Float) : (float x).deepen k = float x := rfl

@[simp]
theorem deepen_text (s : String) (safe : Bool) : (text s safe).deepen k = text s safe := rfl

@[simp]
theorem deepen_function (f : Function) : (function f).deepen k = function f := rfl

@[simp]
theorem deepen_ofString (s : String) : (ofString s).deepen k = ofString s := rfl

@[simp]
theorem deepen_ofChar (c : Char) : (ofChar c).deepen k = ofChar c := rfl

@[simp]
theorem deepenEntry_mk (key v : Value) :
    deepenEntry k (key, v) = (key.deepen k, v.deepen k) := rfl

@[simp]
theorem deepenBinding_mk (name : String) (v : Value) :
    deepenBinding k (name, v) = (name, v.deepen k) := rfl

/-! What a value is. -/

variable (v : Value)

@[simp]
theorem kind_deepen : (v.deepen k).kind = v.kind := by
  cases v <;> rfl

@[simp]
theorem isSafe_deepen : (v.deepen k).isSafe = v.isSafe := by
  cases v <;> rfl

@[simp]
theorem isAbsent_deepen : (v.deepen k).isAbsent = v.isAbsent := by
  cases v <;> rfl

@[simp]
theorem size?_deepen : (v.deepen k).size? = v.size? := by
  cases v <;> simp [size?]

@[simp]
theorem isTrue_deepen : (v.deepen k).isTrue = v.isTrue := by
  cases v <;> simp [isTrue]

@[simp]
theorem toInt?_deepen : (v.deepen k).toInt? = v.toInt? := by
  cases v <;> rfl

@[simp]
theorem toFloat?_deepen (lossy : Bool) : (v.deepen k).toFloat? lossy = v.toFloat? lossy := by
  cases v <;> rfl

theorem items?_deepen : (v.deepen k).items? = v.items?.map (List.map (deepen k)) := by
  cases v <;> simp [items?, Function.comp_def, deepenEntry]

theorem items_deepen : (v.deepen k).items = List.map (deepen k) <$> v.items := by
  unfold Value.items
  rw [items?_deepen, kind_deepen]
  cases v.items? with
  | none => rfl
  | some items => rfl

@[simp]
theorem coerce_deepen (lossy : Bool) (a b : Value) :
    coerce lossy (a.deepen k) (b.deepen k) = coerce lossy a b := by
  cases a <;> cases b <;> rfl

/-! Order and equality. -/

theorem compare_deepen_of_scalar {a b : Value} (plain : ∀ items, a ≠ list items)
    (other : ∀ items sized, a ≠ iter items sized) (others : ∀ entries, a ≠ map entries) :
    compare (a.deepen k) (b.deepen k) = compare a b := by
  rw [compare.eq_def, compare.eq_def a b, kind_deepen, kind_deepen]
  refine ite_congr rfl (fun _ => rfl) fun _ => ?_
  cases a with
  | list items => exact absurd rfl (plain items)
  | iter items sized => exact absurd rfl (other items sized)
  | map entries => exact absurd rfl (others entries)
  | renderer r => cases b <;> simp
  | _ =>
      simp only [← coerce_deepen (k := k) false _ b]
      rfl

mutual

theorem compare_deepen (a b : Value) : compare (a.deepen k) (b.deepen k) = compare a b := by
  match a with
  | list xs =>
      rw [compare.eq_def, compare.eq_def (list xs) b, kind_deepen, kind_deepen]
      refine ite_congr rfl (fun _ => rfl) fun _ => ?_
      cases b with
      | list ys => exact compareAll_deepen xs ys
      | _ => rfl
  | iter xs sized =>
      rw [compare.eq_def, compare.eq_def (iter xs sized) b, kind_deepen, kind_deepen]
      refine ite_congr rfl (fun _ => rfl) fun _ => ?_
      cases b with
      | iter ys sized' => exact compareAll_deepen xs ys
      | _ => rfl
  | map xs =>
      rw [compare.eq_def, compare.eq_def (map xs) b, kind_deepen, kind_deepen]
      refine ite_congr rfl (fun _ => rfl) fun _ => ?_
      cases b with
      | map ys => exact compareEntries_deepen xs ys
      | renderer r => simp
      | _ => rfl
  | undefined | null | bool _ | int _ | float _ | text .. | function _ | renderer _ =>
      exact compare_deepen_of_scalar nofun nofun nofun

theorem compareAll_deepen (xs ys : List Value) :
    compareAll (deepenAll k xs) (deepenAll k ys) = compareAll xs ys := by
  match xs, ys with
  | [], [] => rfl
  | [], _ :: _ => rfl
  | _ :: _, [] => rfl
  | x :: xs, y :: ys =>
      rw [deepenAll, deepenAll, compareAll, compareAll, compare_deepen x y, compareAll_deepen xs ys]

theorem compareEntries_deepen (xs ys : List (Value × Value)) :
    compareEntries (deepenEntries k xs) (deepenEntries k ys) = compareEntries xs ys := by
  match xs, ys with
  | [], [] => rfl
  | [], _ :: _ => rfl
  | _ :: _, [] => rfl
  | (key, v) :: xs, (l, w) :: ys =>
      rw [deepenEntries, deepenEntries, compareEntries, compareEntries, compare_deepen key l,
        compare_deepen v w, compareEntries_deepen xs ys]

end

attribute [simp] compare_deepen

theorem atKey?_deepen (key : Value) (entries : List (Value × Value)) :
    atKey? (key.deepen k) (entries.map (deepenEntry k)) = (atKey? key entries).map (deepen k) := by
  induction entries with
  | nil => rfl
  | cons entry rest ih =>
      rw [List.map_cons, atKey?, deepenEntry, compare_deepen, ih, atKey?]
      split
      · rfl
      · rfl

theorem scalarEq?_deepen (a b : Value) : scalarEq? (a.deepen k) (b.deepen k) = scalarEq? a b := by
  cases a <;> cases b <;> rfl

mutual

theorem equal_deepen (a b : Value) : equal (a.deepen k) (b.deepen k) = equal a b := by
  match a with
  | list xs =>
      rw [equal.eq_def, equal.eq_def (list xs) b]
      cases b with
      | list ys => exact equalAll_deepen xs ys
      | iter ys sized => exact equalAll_deepen xs ys
      | _ => rfl
  | iter xs sized =>
      rw [equal.eq_def, equal.eq_def (iter xs sized) b]
      cases b with
      | list ys => exact equalAll_deepen xs ys
      | iter ys sized => exact equalAll_deepen xs ys
      | _ => rfl
  | map xs =>
      rw [equal.eq_def, equal.eq_def (map xs) b]
      cases b with
      | map ys =>
          have entries := equalEntries_deepen xs ys
          rw [← deepenEntries_eq_map] at entries
          simp only [deepen]
          rw [entries]
          simp only [deepenEntries_eq_map, List.length_map]
      | renderer r => simp
      | _ => rfl
  | undefined | null | bool _ | int _ | float _ | text .. | function _ =>
      rw [equal.eq_def, equal.eq_def _ b]
      exact congrArg (Option.getD · false) (scalarEq?_deepen _ b)
  | renderer r =>
      cases b with
      | map ys => simp [equal]
      | _ => simp [equal]

theorem equalAll_deepen (xs ys : List Value) :
    equalAll (deepenAll k xs) (deepenAll k ys) = equalAll xs ys := by
  match xs, ys with
  | [], [] => rfl
  | [], _ :: _ => rfl
  | _ :: _, [] => rfl
  | x :: xs, y :: ys =>
      rw [deepenAll, deepenAll, equalAll, equalAll, equal_deepen x y, equalAll_deepen xs ys]

theorem equalEntries_deepen (xs ys : List (Value × Value)) :
    equalEntries (deepenEntries k xs) (ys.map (deepenEntry k)) = equalEntries xs ys := by
  match xs with
  | [] => rfl
  | (key, v) :: xs =>
      rw [deepenEntries, equalEntries, equalEntries, equalEntries_deepen xs ys, atKey?_deepen]
      cases atKey? key ys with
      | none => rfl
      | some w =>
          simp only [Option.map_some]
          rw [equal_deepen v w]

end

attribute [simp] equal_deepen

theorem insertEntry_deepen (key value : Value) (entries : List (Value × Value)) :
    insertEntry (key.deepen k) (value.deepen k) (entries.map (deepenEntry k)) =
      (insertEntry key value entries).map (deepenEntry k) := by
  induction entries with
  | nil => rfl
  | cons entry rest ih =>
      obtain ⟨found, v⟩ := entry
      rw [List.map_cons, deepenEntry_mk, insertEntry, insertEntry, compare_deepen]
      cases compare key found with
      | lt => rfl
      | eq => rfl
      | gt =>
          simp only [List.map_cons, ih]
          rfl

theorem insertEntries_deepen (entries known : List (Value × Value)) :
    (entries.map (deepenEntry k)).foldl (fun m (k, v) => insertEntry k v m)
      (known.map (deepenEntry k)) =
    (entries.foldl (fun m (k, v) => insertEntry k v m) known).map (deepenEntry k) := by
  induction entries generalizing known with
  | nil => rfl
  | cons entry rest ih =>
      rw [List.map_cons, List.foldl_cons, List.foldl_cons, ← ih]
      exact congrArg (List.foldl _ · (rest.map (deepenEntry k)))
        (insertEntry_deepen entry.1 entry.2 known)

@[simp]
theorem ofEntries_deepen (entries : List (Value × Value)) :
    ofEntries (entries.map (deepenEntry k)) = (ofEntries entries).deepen k := by
  rw [ofEntries, ofEntries, deepen_map]
  exact congrArg map (insertEntries_deepen entries [])

/-! Variables by name. -/

theorem insertBinding_deepen (d : Dict Value) (name : String) (v : Value) :
    Dict.insert (d.map (deepenBinding k)) name (v.deepen k) =
      (d.insert name v).map (deepenBinding k) := by
  induction d with
  | nil => rfl
  | cons entry rest ih =>
      obtain ⟨found, w⟩ := entry
      rw [List.map_cons, deepenBinding_mk, Dict.insert, Dict.insert, ih]
      split
      · rfl
      · split
        · rfl
        · rfl

theorem findBinding_deepen (d : Dict Value) (name : String) :
    Dict.find? (d.map (deepenBinding k)) name = (d.find? name).map (deepen k) := by
  induction d with
  | nil => rfl
  | cons entry rest ih =>
      obtain ⟨found, w⟩ := entry
      rw [List.map_cons, deepenBinding_mk, Dict.find?, Dict.find?, ih]
      split
      · rfl
      · rfl

theorem mergeBindings_deepen (d new : Dict Value) :
    Dict.merge (d.map (deepenBinding k)) (new.map (deepenBinding k)) =
      (Dict.merge d new).map (deepenBinding k) := by
  induction new generalizing d with
  | nil => rfl
  | cons entry rest ih =>
      rw [List.map_cons]
      refine Eq.trans ?_ (ih (d.insert entry.1 entry.2))
      rw [← insertBinding_deepen]
      rfl

/-! Text. -/

mutual

theorem inspect_deepen (v : Value) : inspect (v.deepen k) = inspect v := by
  match v with
  | list items => rw [deepen, inspect, inspect, inspectAll_deepen items]
  | iter items sized => rw [deepen, inspect, inspect, inspectAll_deepen items]
  | map entries => rw [deepen, inspect, inspect, inspectEntries_deepen entries]
  | undefined | null | bool _ | int _ | float _ | text .. | function _ => rfl
  | renderer r =>
      rw [deepen_renderer, inspect, inspect]

theorem inspectAll_deepen (items : List Value) : inspectAll (deepenAll k items) = inspectAll items := by
  match items with
  | [] => rfl
  | v :: vs => rw [deepenAll, inspectAll, inspectAll, inspect_deepen v, inspectAll_deepen vs]

theorem inspectEntries_deepen (entries : List (Value × Value)) :
    inspectEntries (deepenEntries k entries) = inspectEntries entries := by
  match entries with
  | [] => rfl
  | (key, v) :: rest =>
      rw [deepenEntries, inspectEntries, inspectEntries, inspect_deepen key, inspect_deepen v,
        inspectEntries_deepen rest]

end

@[simp]
theorem display_deepen (v : Value) : (v.deepen k).display = v.display := by
  cases v with
  | undefined | text | float => rfl
  | _ => exact inspect_deepen _

@[simp]
theorem shown_deepen (v : Value) : (v.deepen k).shown = v.shown := by
  rw [shown, shown, isAbsent_deepen, display_deepen]

/-! No more renders at all. -/

mutual

@[simp]
theorem deepen_zero (v : Value) : v.deepen 0 = v := by
  match v with
  | list items => rw [deepen, deepenAll_zero items]
  | iter items sized => rw [deepen, deepenAll_zero items]
  | map entries => rw [deepen, deepenEntries_zero entries]
  | undefined | null | bool _ | int _ | float _ | text .. | function _ => rfl
  | renderer ⟨dialect, depth, partials, bindings⟩ =>
      rw [deepen, deepenBindings_zero bindings, Nat.add_zero]

theorem deepenAll_zero (items : List Value) : deepenAll 0 items = items := by
  match items with
  | [] => rfl
  | v :: vs => rw [deepenAll, deepen_zero v, deepenAll_zero vs]

theorem deepenEntries_zero (entries : List (Value × Value)) : deepenEntries 0 entries = entries := by
  match entries with
  | [] => rfl
  | (key, v) :: rest => rw [deepenEntries, deepen_zero key, deepen_zero v, deepenEntries_zero rest]

theorem deepenBindings_zero (bindings : List (String × Value)) :
    deepenBindings 0 bindings = bindings := by
  match bindings with
  | [] => rfl
  | (name, v) :: rest => rw [deepenBindings, deepen_zero v, deepenBindings_zero rest]

end

end Value

theorem Renderer.deepen_zero (r : Renderer Value) : r.deepen 0 = r := by
  have same := Value.deepen_zero (.renderer r)
  rw [Value.deepen_renderer] at same
  exact Value.renderer.inj same

end Haml
