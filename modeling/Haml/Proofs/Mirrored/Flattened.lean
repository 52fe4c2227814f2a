import Haml.Proofs.Mirrored.Evaluators
import Haml.Proofs.Ordered
/-! Contexts with their lower scopes merged into one: scripts bring about the same changes on a stack
of scopes and on a stack whose lowest scopes are one. -/

namespace Haml

namespace Context

open Dict Value

def mergeBelow : Nat → List Scope → List Scope
  | 0, scopes => [flatten scopes]
  | _ + 1, [] => []
  | m + 1, scope :: rest => scope :: mergeBelow m rest

section

variable {scopes : List Scope} (ordered : ∀ scope ∈ scopes, scope.Ordered) (m : Nat) (name : String)
  (v : Value)

include ordered

theorem flatten_mergeBelow : flatten (mergeBelow m scopes) = flatten scopes := by
  induction m generalizing scopes with
  | zero => exact (ordered_flatten scopes).merge_nil
  | succ m ih =>
      cases scopes with
      | nil => rfl
      | cons scope rest =>
          obtain ⟨-, others⟩ := List.forall_mem_cons.mp ordered
          rw [mergeBelow, flatten, flatten, ih others]

theorem any_contains_mergeBelow : (mergeBelow m scopes).any (fun scope => scope.contains name) =
    scopes.any fun scope => scope.contains name := by
  induction m generalizing scopes with
  | zero =>
      rw [mergeBelow, List.any_cons, List.any_nil, Bool.or_false]
      exact contains_flatten ordered name
  | succ m ih =>
      cases scopes with
      | nil => rfl
      | cons scope rest =>
          obtain ⟨-, others⟩ := List.forall_mem_cons.mp ordered
          rw [mergeBelow, List.any_cons, List.any_cons, ih others]

theorem mergeBelow_assignIn (present : scopes.any (fun scope => scope.contains name) = true) :
    mergeBelow m (assignIn name v scopes) = assignIn name v (mergeBelow m scopes) := by
  induction m generalizing scopes with
  | zero =>
      rw [mergeBelow, mergeBelow, flatten_assignIn ordered v present, assignIn,
        if_pos ((contains_flatten ordered name).trans present)]
  | succ m ih =>
      cases scopes with
      | nil => rfl
      | cons scope rest =>
          obtain ⟨-, others⟩ := List.forall_mem_cons.mp ordered
          rw [mergeBelow, assignIn, assignIn]
          by_cases here : scope.contains name = true
          · rw [if_pos here, if_pos here, mergeBelow]
          · rw [List.any_cons, Bool.or_eq_true] at present
            rw [if_neg here, if_neg here, mergeBelow, ih others (present.resolve_left here)]

end

theorem mergeBelow_insert {inner : Scope} (ordered : inner.Ordered) (outer : List Scope) (m : Nat)
    (name : String) (v : Value) : mergeBelow m (inner.insert name v :: outer) =
      (mergeBelow m (inner :: outer)).modifyHead fun scope => scope.insert name v := by
  cases m with
  | zero => exact congrArg (fun scope => [scope]) ((ordered_flatten outer).merge_insert ordered name v)
  | succ m => rfl

variable {k : Nat}

theorem flatten_deepen (scopes : List Scope) :
    flatten (scopes.map (List.map (deepenBinding k))) =
      (flatten scopes).map (deepenBinding k) := by
  induction scopes with
  | nil => rfl
  | cons scope rest ih => rw [List.map_cons, flatten, flatten, ih, mergeBindings_deepen]

theorem contains_deepen (d : Dict Value) (name : String) :
    Dict.contains (d.map (deepenBinding k)) name = d.contains name := by
  rw [Dict.contains, findBinding_deepen, Option.isSome_map, Dict.contains]

theorem defines_deepen (d : Dict Value) (name : String) :
    defines (d.map (deepenBinding k)) name = defines d name := by
  rw [defines, findBinding_deepen, defines]
  cases d.find? name with
  | none => rfl
  | some v => cases v <;> rfl

theorem any_contains_deepen (scopes : List Scope) (name : String) :
    (scopes.map (List.map (deepenBinding k))).any (fun scope => Dict.contains scope name) =
      scopes.any fun scope => scope.contains name := by
  rw [List.any_map]
  exact congrArg scopes.any (funext fun scope => contains_deepen scope name)

theorem assignIn_deepen (name : String) (v : Value) (scopes : List Scope) :
    assignIn name (v.deepen k) (scopes.map (List.map (deepenBinding k))) =
      (assignIn name v scopes).map (List.map (deepenBinding k)) := by
  induction scopes with
  | nil => rfl
  | cons scope rest ih =>
      rw [List.map_cons, assignIn, assignIn, contains_deepen, insertBinding_deepen, ih]
      split
      · rfl
      · rfl

/-- Whether a context is another one with all scopes below the topmost `m` merged into one, inside
`k` renders more, all its callables having counted those. -/
structure Flattens (k m : Nat) (c d : Context) : Prop where
  dialect : d.dialect = c.dialect
  partials : d.partials = c.partials
  depth : d.depth = c.depth + k
  scopes : d.scopes = (mergeBelow m c.scopes).map (List.map (deepenBinding k))
  within : m ≤ c.outer.length
  ordered : ∀ scope ∈ c.scopes, scope.Ordered

theorem assign_eq (c : Context) (name : String) (v : Value) :
    c.assign name v =
      { c with inner := (c.assign name v).inner, outer := (c.assign name v).outer } := by
  unfold Context.assign
  split
  · rfl
  · rfl

theorem length_assignIn (name : String) (v : Value) (scopes : List Scope) :
    (assignIn name v scopes).length = scopes.length := by
  induction scopes with
  | nil => rfl
  | cons scope rest ih =>
      rw [assignIn]
      split
      · rfl
      · exact congrArg Nat.succ ih

namespace Flattens

variable {m : Nat} {c d : Context} (flattens : Flattens k m c d)

include flattens

theorem visible : d.visible = c.visible.map (deepenBinding k) := by
  rw [Context.visible, flattens.scopes, flatten_deepen, flatten_mergeBelow flattens.ordered]
  rfl

theorem renderer : d.renderer = c.renderer.deepen k := by
  rw [Context.renderer, flattens.dialect, flattens.partials, flattens.depth, flattens.visible]
  rfl

theorem bindings : d.bindings = c.bindings.map (deepenBinding k) := by
  rw [Context.bindings, flattens.partials, flattens.visible, flattens.renderer, defines_deepen,
    Context.bindings, ← deepen_renderer, insertBinding_deepen]
  split
  · rfl
  · rfl

theorem bind (name : String) (v : Value) :
    Flattens k m (c.bind name v) (d.bind name (v.deepen k)) where
  dialect := flattens.dialect
  partials := flattens.partials
  depth := flattens.depth
  scopes := by
    obtain ⟨here, -⟩ := List.forall_mem_cons.mp flattens.ordered
    have merged : mergeBelow m (c.bind name v).scopes =
        (mergeBelow m c.scopes).modifyHead fun scope => scope.insert name v :=
      mergeBelow_insert here c.outer m name v
    rw [scopes_bind, flattens.scopes, merged]
    cases mergeBelow m c.scopes with
    | nil => rfl
    | cons scope rest =>
        rw [List.map_cons, List.modifyHead_cons, insertBinding_deepen, List.modifyHead_cons,
          List.map_cons]
  within := flattens.within
  ordered := by
    obtain ⟨here, others⟩ := List.forall_mem_cons.mp flattens.ordered
    exact List.forall_mem_cons.mpr ⟨here.insert name v, others⟩

theorem assign (name : String) (v : Value) :
    Flattens k m (c.assign name v) (d.assign name (v.deepen k)) where
  dialect := by
    rw [assign_eq c, assign_eq d]
    exact flattens.dialect
  partials := by
    rw [assign_eq c, assign_eq d]
    exact flattens.partials
  depth := by
    rw [assign_eq c, assign_eq d]
    exact flattens.depth
  scopes := by
    have present : d.scopes.any (fun scope => Dict.contains scope name) =
        c.scopes.any fun scope => Dict.contains scope name := by
      rw [flattens.scopes, any_contains_deepen, any_contains_mergeBelow flattens.ordered]
    rw [scopes_assign, scopes_assign, present]
    by_cases any : c.scopes.any (fun scope => Dict.contains scope name) = true
    · rw [if_pos any, if_pos any, mergeBelow_assignIn flattens.ordered m name v any,
        flattens.scopes, assignIn_deepen]
    · rw [if_neg any, if_neg any]
      exact (flattens.bind name v).scopes
  within := by
    unfold Context.assign
    split
    · exact flattens.within
    · exact flattens.within.trans (length_assignIn name v c.outer).ge
  ordered := by
    rw [scopes_assign]
    split
    · exact ordered_assignIn flattens.ordered name v
    · exact (flattens.bind name v).ordered

theorem pushScope : Flattens k (m + 1) c.pushScope d.pushScope where
  dialect := flattens.dialect
  partials := flattens.partials
  depth := flattens.depth
  scopes := congrArg (List.cons []) flattens.scopes
  within := Nat.succ_le_succ flattens.within
  ordered := List.forall_mem_cons.mpr ⟨Dict.ordered_nil, flattens.ordered⟩

omit flattens in
theorem popScope (flattens : Flattens k (m + 1) c d) : Flattens k m c.popScope d.popScope := by
  obtain ⟨dialect, inner, outer, partials, methods, depth⟩ := c
  obtain ⟨dialect', inner', outer', partials', methods', depth'⟩ := d
  cases outer with
  | nil => exact absurd flattens.within (Nat.not_succ_le_zero m)
  -- The scope that is left stands above those that are merged.
  | cons scope rest =>
      have scopes := flattens.scopes
      have ordered := (List.forall_mem_cons.mp flattens.ordered).2
      obtain ⟨top, below, merged⟩ : ∃ top below, mergeBelow m (scope :: rest) = top :: below := by
        cases m with
        | zero => exact ⟨_, _, rfl⟩
        | succ m => exact ⟨_, _, rfl⟩
      obtain ⟨-, others⟩ : inner' = inner.map (deepenBinding k) ∧
          outer' = (top :: below).map (List.map (deepenBinding k)) := by
        rw [← merged]
        exact List.cons.inj scopes
      subst others
      refine ⟨flattens.dialect, flattens.partials, flattens.depth, ?_, ?_, ordered⟩
      · exact congrArg (List.map (List.map (deepenBinding k))) merged.symm
      · exact Nat.le_of_succ_le_succ flattens.within

end Flattens

theorem mirroring_flattens (k : Nat) : Mirroring k (Flattens k) where
  bindings := Flattens.bindings
  bind := Flattens.bind
  assign := Flattens.assign
  pushScope := Flattens.pushScope
  popScope := Flattens.popScope

end Context

end Haml
