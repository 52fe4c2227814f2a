import Haml.Proofs.Deepened
/-! Parts of deepened values, and what operators make of them: deepened results of the same. -/

namespace Haml

namespace Value

variable {k : Nat}

section Access

variable (v key : Value)

@[simp]
theorem position?_deepen (size : Option Nat) : position? size (key.deepen k) = position? size key := by
  rw [position?, position?, toInt?_deepen]

theorem item?_deepen : (v.deepen k).item? (key.deepen k) = (v.item? key).map (deepen k) := by
  cases v with
  | map entries =>
      rw [deepen_map]
      exact atKey?_deepen key entries
  | list items =>
      rw [deepen_list, item?, item?, List.length_map, position?_deepen, Option.map_bind]
      exact Option.bind_congr fun i _ => List.getElem?_map
  | iter items sized =>
      rw [deepen_iter, item?, item?, List.length_map, position?_deepen, Option.map_bind]
      exact Option.bind_congr fun i _ => List.getElem?_map
  | text s safe =>
      rw [deepen_text, item?, item?, position?_deepen, Option.map_bind]
      refine Option.bind_congr fun i _ => ?_
      rw [Function.comp_apply, Option.map_map]
      rfl
  | _ => rfl

theorem getItem_deepen : (v.deepen k).getItem (key.deepen k) = deepen k <$> v.getItem key := by
  unfold getItem
  rw [item?_deepen]
  cases v.item? key with
  | some part => rfl
  | none => cases v <;> rfl

theorem getAttr_deepen (name : String) : (v.deepen k).getAttr name = deepen k <$> v.getAttr name := by
  cases v with
  | map entries =>
      have found := atKey?_deepen (k := k) (ofString name) entries
      rw [deepen_ofString] at found
      rw [deepen_map, getAttr, getAttr, found]
      cases atKey? (ofString name) entries with
      | none => rfl
      | some part => rfl
  | _ => rfl

theorem getPath_deepen (path : String) : (v.deepen k).getPath path = deepen k <$> v.getPath path := by
  unfold getPath
  conv => lhs; rw [← List.map_id (path.splitOn ".")]
  refine foldlM_natural (fun v part => ?_) (path.splitOn ".") v
  rw [id]
  split
  · exact getItem_deepen v (int _)
  · exact getItem_deepen v (ofString _)

theorem bound?_deepen : bound? (v.deepen k) = bound? v := by
  cases v <;> rfl

theorem everyNth_map {α β : Type} (f : α → β) (step skip : Nat) (xs : List α) :
    everyNth step skip (xs.map f) = (everyNth step skip xs).map f := by
  induction xs generalizing skip with
  | nil => simp [everyNth]
  | cons x xs ih =>
      cases skip with
      | zero => rw [List.map_cons, everyNth, ih, everyNth, List.map_cons]
      | succ skip => rw [List.map_cons, everyNth, ih, everyNth]

theorem sliceItems_map {α β : Type} (f : α → β) (start stop : Option Int) (step : Int)
    (xs : List α) :
    sliceItems start stop step (xs.map f) = (sliceItems start stop step xs).map f := by
  unfold sliceItems
  split
  · simp only [sliceForward, List.length_map, ← List.map_drop, ← List.map_take, everyNth_map]
  · simp only [sliceBackward, List.length_map, List.map_filterMap]
    congr 1
    funext i
    rw [apply_ite (Option.map f), Option.map_none, List.getElem?_map]

theorem slice_deepen (start stop step : Value) :
    (v.deepen k).slice (start.deepen k) (stop.deepen k) (step.deepen k) =
      deepen k <$> v.slice start stop step := by
  unfold slice
  rw [bound?_deepen, bound?_deepen, bound?_deepen]
  rw [map_bind]
  refine bind_congr fun start => ?_
  rw [map_bind]
  refine bind_congr fun stop => ?_
  rw [map_bind]
  refine bind_congr fun step => ?_
  dsimp only
  by_cases zero : step.getD 1 = 0
  · rw [if_pos zero, if_pos zero]
    rfl
  · rw [if_neg zero, if_neg zero]
    cases v with
    | list items => simp [sliceItems_map]
    | iter items sized => simp [sliceItems_map]
    | _ => rfl

theorem contains_deepen :  (v.deepen k).contains (key.deepen k) = v.contains key := by
  cases v with
  | map entries =>
      rw [deepen_map, contains, contains, atKey?_deepen, Option.isSome_map]
  | list items =>
      rw [deepen_list, contains, contains, List.any_map]
      simp only [Function.comp_def, equal_deepen]
  | iter items sized =>
      rw [deepen_iter, contains, contains, List.any_map]
      simp only [Function.comp_def, equal_deepen]
  | text s safe =>
      cases key with
      | text t other => rfl
      | undefined | null | bool | int | float | function => rfl
      | _ =>
          exact congrArg (fun part : String =>
            (Except.ok (Text.splitOnce part.toList s.toList).isSome : Except Fault Bool))
            (display_deepen _)
  | _ => rfl

end Access

/-! Arithmetic. -/

section Arithmetic

variable (op : String) (a b : Value)

theorem bounded_deepen (n : Int) :
    bounded op (a.deepen k) (b.deepen k) n = deepen k <$> bounded op a b n := by
  unfold bounded
  rw [display_deepen, display_deepen]
  split
  · rfl
  · rfl

theorem failed_deepen : failed op (a.deepen k) (b.deepen k) = deepen k <$> failed op a b := by
  rw [failed, display_deepen, display_deepen]
  rfl

theorem unsupported_deepen :
    unsupported op (a.deepen k) (b.deepen k) = deepen k <$> unsupported op a b := by
  rw [unsupported, kind_deepen, kind_deepen]
  rfl

theorem sequence?_deepen :
    sequence? (a.deepen k) = (sequence? a).map fun p => (p.1.map (deepen k), p.2) := by
  cases a <;> simp [sequence?]

theorem toCount?_deepen : toCount? (a.deepen k) = toCount? a := by
  rw [toCount?, toCount?, toInt?_deepen]

theorem add_deepen : (a.deepen k).add (b.deepen k) = deepen k <$> a.add b := by
  unfold add
  rw [sequence?_deepen, sequence?_deepen, coerce_deepen]
  cases sequence? a with
  | none =>
      dsimp only [Option.map_none]
      split
      · exact bounded_deepen "+" a b _
      · rfl
      · rfl
      · exact unsupported_deepen "+" a b
  | some p =>
      cases sequence? b with
      | none =>
          dsimp only [Option.map_some, Option.map_none]
          split
          · exact bounded_deepen "+" a b _
          · rfl
          · rfl
          · exact unsupported_deepen "+" a b
      | some q =>
          dsimp only [Option.map_some]
          rw [← List.map_append, ← deepen_iter]
          rfl

theorem sub_deepen : (a.deepen k).sub (b.deepen k) = deepen k <$> a.sub b := by
  unfold sub
  rw [coerce_deepen]
  split
  · exact bounded_deepen "-" a b _
  · rfl
  · exact unsupported_deepen "-" a b

theorem times_deepen (items : List Value) (sized : Bool) (count : Value) :
    mul.times (items.map (deepen k)) sized (count.deepen k) =
      deepen k <$> mul.times items sized count := by
  unfold mul.times
  rw [toCount?_deepen]
  cases toCount? count with
  | none => rfl
  | some n =>
      dsimp only
      rw [← List.map_replicate, ← List.map_flatten, ← deepen_iter]
      rfl

def repeated (s : String) (count : Value) : Except Fault Value :=
  match toCount? count with
  | some n => .ok (ofString (repeatText s n))
  | none => .error (.refused "strings can only be multiplied with integers")

theorem repeated_deepen (s : String) (count : Value) :
    repeated s (count.deepen k) = deepen k <$> repeated s count := by
  rw [repeated, repeated, toCount?_deepen]
  cases toCount? count <;> rfl

theorem mul_text_right {s : String} {safe : Bool} (plain : ∀ t other, a ≠ text t other) :
    a.mul (text s safe) = repeated s a := by
  unfold mul
  split
  · next t other => exact absurd rfl (plain t other)
  · next absent same =>
      cases same
      rfl
  · next absent => exact absurd rfl (absent s safe)

theorem mul_of_ne_text (plain : ∀ s safe, a ≠ text s safe) (other : ∀ s safe, b ≠ text s safe) :
    a.mul b = match sequence? a, sequence? b with
      | some (xs, sized), _ => mul.times xs sized b
      | _, some (xs, sized) => mul.times xs sized a
      | _, _ =>
          match coerce true a b with
          | some (.ints m n) => bounded "*" a b (m * n)
          | some (.floats x y) => .ok (float (x * y))
          | _ => unsupported "*" a b := by
  unfold mul
  split
  · next s safe => exact absurd rfl (plain s safe)
  · next s safe _ => exact absurd rfl (other s safe)
  · rfl

theorem deepen_ne_text {v : Value} (plain : ∀ s safe, v ≠ text s safe) :
    ∀ s safe, v.deepen k ≠ text s safe := by
  intro s safe
  cases v with
  | text t other => exact absurd rfl (plain t other)
  | _ => simp

theorem mul_deepen : (a.deepen k).mul (b.deepen k) = deepen k <$> a.mul b := by
  by_cases left : ∃ s safe, a = text s safe
  · obtain ⟨s, safe, rfl⟩ := left
    exact repeated_deepen s b
  · have plain : ∀ s safe, a ≠ text s safe := fun s safe same => left ⟨s, safe, same⟩
    by_cases right : ∃ s safe, b = text s safe
    · obtain ⟨s, safe, rfl⟩ := right
      rw [deepen_text, mul_text_right a plain, mul_text_right _ (deepen_ne_text plain)]
      exact repeated_deepen s a
    · have other : ∀ s safe, b ≠ text s safe := fun s safe same => right ⟨s, safe, same⟩
      rw [mul_of_ne_text _ _ plain other,
        mul_of_ne_text _ _ (deepen_ne_text plain) (deepen_ne_text other), sequence?_deepen,
        sequence?_deepen, coerce_deepen]
      cases sequence? a with
      | some p => exact times_deepen p.1 p.2 b
      | none =>
          cases sequence? b with
          | some p => exact times_deepen p.1 p.2 a
          | none =>
              dsimp only [Option.map_none]
              split
              · exact bounded_deepen "*" a b _
              · rfl
              · exact unsupported_deepen "*" a b

theorem div_deepen : (a.deepen k).div (b.deepen k) = deepen k <$> a.div b := by
  unfold div
  rw [toFloat?_deepen, toFloat?_deepen]
  split
  · rfl
  · exact unsupported_deepen "/" a b

theorem floorDiv_deepen : (a.deepen k).floorDiv (b.deepen k) = deepen k <$> a.floorDiv b := by
  unfold floorDiv
  rw [coerce_deepen]
  split
  · split
    · exact failed_deepen "//" a b
    · exact bounded_deepen "//" a b _
  · rfl
  · exact unsupported_deepen "//" a b

theorem mod_deepen : (a.deepen k).mod (b.deepen k) = deepen k <$> a.mod b := by
  unfold mod
  rw [coerce_deepen]
  split
  · split
    · exact failed_deepen "%" a b
    · exact bounded_deepen "%" a b _
  · rfl
  · exact unsupported_deepen "%" a b

theorem pow_deepen : (a.deepen k).pow (b.deepen k) = deepen k <$> a.pow b := by
  unfold pow
  rw [coerce_deepen]
  split
  · split
    · exact failed_deepen "**" a b
    · split
      · rfl
      · exact failed_deepen "**" a b
  · rfl
  · exact unsupported_deepen "**" a b

theorem neg_deepen : (a.deepen k).neg = deepen k <$> a.neg := by
  cases a with
  | int n =>
      rw [deepen_int, neg, apply_ite (deepen k <$> ·)]
      rfl
  | _ => rfl

theorem concat_deepen : (a.deepen k).concat (b.deepen k) = (a.concat b).deepen k := by
  rw [concat, concat, display_deepen, display_deepen, deepen_ofString]

end Arithmetic

end Value

open Value

theorem BinaryOp.apply_deepen {k : Nat} (op : BinaryOp) (a b : Value) :
    op.apply (a.deepen k) (b.deepen k) = deepen k <$> op.apply a b := by
  cases op with
  | add => exact add_deepen a b
  | sub => exact sub_deepen a b
  | mul => exact mul_deepen a b
  | div => exact div_deepen a b
  | floorDiv => exact floorDiv_deepen a b
  | mod => exact mod_deepen a b
  | pow => exact pow_deepen a b
  | concat => exact congrArg Except.ok (concat_deepen a b)
  | isIn =>
      simp only [apply, contains_deepen]
      cases b.contains a <;> rfl
  | eq | ne =>
      simp only [apply, equal_deepen]
      rfl
  | lt | le | gt | ge =>
      simp only [apply, compare_deepen]
      rfl

end Haml
