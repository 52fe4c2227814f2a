import Haml.Proofs.Comparison
import Haml.Proofs.Deepened.Filters
/-! Evaluation where the variables are deepened: the values are those of before, deepened, unless a
call fails that did not. -/

namespace Haml

open Value

namespace Expr

variable {k : Nat}

theorem namedEntries_deepen (args : List (ArgForm × Value)) :
    namedEntries (args.map (Prod.map id (Value.deepen k))) =
      List.map (deepenBinding k) <$> namedEntries args := by
  have displayed : (fun entry : Value × Value => (entry.1.display, entry.2)) ∘ deepenEntry k =
      deepenBinding k ∘ fun entry => (entry.1.display, entry.2) := by
    funext entry
    exact congrArg (·, entry.2.deepen k) (display_deepen entry.1)
  induction args with
  | nil => rfl
  | cons arg args ih =>
      obtain ⟨form, v⟩ := arg
      rw [List.map_cons]
      cases form with
      | named name =>
          simp only [Prod.map, id, namedEntries, ih, Functor.map_map]
          rfl
      | positional | spread | spreadNamed =>
          cases v with
          | map entries =>
              simp only [Prod.map, id, deepen_map, namedEntries, ih, Functor.map_map,
                List.map_append, List.map_map, displayed]
          | renderer r => simp only [Prod.map, id, deepen_renderer, namedEntries, ih]
          | _ => rfl

theorem positionalValues_deepen (args : List (ArgForm × Value)) :
    positionalValues (args.map (Prod.map id (Value.deepen k))) =
      List.map (Value.deepen k) <$> positionalValues args := by
  induction args with
  | nil => rfl
  | cons arg args ih =>
      obtain ⟨form, v⟩ := arg
      rw [List.map_cons]
      cases form with
      | spread =>
          apply bind_natural (items_deepen v)
          intro items
          apply bind_natural ih
          intro values
          exact congrArg Except.ok List.map_append.symm
      | positional | named name | spreadNamed =>
          simp only [Prod.map, id, positionalValues, ih, Functor.map_map, List.map_cons]

theorem ofGiven_deepen (positional named : List (ArgForm × Value)) :
    Args.ofGiven (positional.map (Prod.map id (Value.deepen k)))
        (named.map (Prod.map id (Value.deepen k))) =
      Args.deepen k <$> Args.ofGiven positional named := by
  apply bind_natural (namedEntries_deepen named)
  intro entries
  apply bind_natural (positionalValues_deepen positional)
  intro values
  have ordered : Dict.ofList (entries.map (deepenBinding k)) =
      (Dict.ofList entries).map (deepenBinding k) := mergeBindings_deepen [] entries
  refine congrArg Except.ok ?_
  rw [Args.deepen, ordered, List.isEmpty_map]
  cases named with
  | nil => rfl
  | cons arg args => rfl

variable {F : Fault → Prop} {extra : List Function} {bindings : Dict Value}
  {a b : Renderer Value → List Value → Except Fault Value}

theorem lookup?_deepen (name : String) :
    Env.lookup? ⟨extra, bindings.map (deepenBinding k), b⟩ name =
      (Env.lookup? ⟨extra, bindings, a⟩ name).map (Value.deepen k) := by
  have same : (Env.global? ⟨extra, bindings, a⟩ name).map (Value.deepen k) =
      Env.global? ⟨extra, bindings.map (deepenBinding k), b⟩ name := by
    unfold Env.global?
    split
    · rfl
    · rw [Option.map_map]
      rfl
  rw [Env.lookup?, Env.lookup?, findBinding_deepen, Option.map_or, same]

/-- Whether answers to deepened callables are those to the callables, deepened, unless they fail in
one of certain ways. -/
def CallsFollow (k : Nat) (F : Fault → Prop)
    (a b : Renderer Value → List Value → Except Fault Value) : Prop :=
  ∀ r args, Follows F (Value.deepen k) (a r args) (b (r.deepen k) (args.map (Value.deepen k)))

def deepening (k : Nat) (F : Fault → Prop) : Comparison Bool where
  Fit _ := True
  FitArgs _ := True
  seen deep := bif deep then Value.deepen k else id
  seenArgs deep := bif deep then Args.deepen k else id
  Fails x := (∃ e, ∀ deep, x deep = .error e) ∨ ∃ e, F e ∧ x true = .error e
  fails_bind f := by
    rintro (⟨e, same⟩ | ⟨e, failing, ends⟩)
    · exact .inl ⟨e, fun deep => congrArg (· >>= f deep) (same deep)⟩
    · exact .inr ⟨e, failing, congrArg (· >>= f true) ends⟩

theorem alike_of_follows {α : Type} {P : α → Prop} {g : Bool → α → α} {x : Bool → Except Fault α}
    (follows : Follows F (g true) (x false) (x true)) (holds : ∀ a, P a)
    (start : ∀ a, g false a = a) : (deepening k F).Alike P g x := by
  generalize before : x false = y at follows
  generalize after : x true = z at follows
  cases follows with
  | same =>
      cases y with
      | ok a =>
          refine .ok a (holds a) fun deep => ?_
          cases deep with
          | false => rw [before, start]
          | true => exact after
      | error e => exact .fails (.inl ⟨e, Bool.forall_bool.mpr ⟨before, after⟩⟩)
  | fails failing => exact .fails (.inr ⟨_, failing, after⟩)

theorem follows_of_alike {x : Bool → Except Fault Value} (alike : (deepening k F).Gives x) :
    Follows F (Value.deepen k) (x false) (x true) := by
  cases alike with
  | ok v _ same =>
      rw [same, same]
      exact .ok v
  | fails failing =>
      obtain ⟨e, same⟩ | ⟨e, failing, ends⟩ := failing
      · rw [same, same]
        exact .error e
      · rw [ends]
        exact .fails _ failing

theorem fixed_deepening {v : Value} (same : v.deepen k = v) : (deepening k F).Fixed v :=
  ⟨trivial, Bool.forall_bool.mpr ⟨rfl, same⟩⟩

theorem gives_deepening {x : Bool → Except Fault Value}
    (follows : Follows F (Value.deepen k) (x false) (x true)) : (deepening k F).Gives x :=
  alike_of_follows follows (fun _ => trivial) fun _ => rfl

section

variable (calls : CallsFollow k F a b)

include calls

theorem callValue_follows (callee : Value) (args : Args) :
    Follows F (Value.deepen k) (callValue ⟨extra, bindings, a⟩ callee args)
      (callValue ⟨extra, bindings.map (deepenBinding k), b⟩ (callee.deepen k) (args.deepen k)) := by
  cases callee with
  | function f => exact .of_eq (Function.run_deepen f args)
  | renderer r =>
      rw [deepen_renderer, callValue, callValue, Args.all_deepen]
      exact calls r args.all
  | _ => exact .error _

theorem callMethod_follows (v : Value) (name : String) (args : Args) :
    Follows F (Value.deepen k) (callMethod ⟨extra, bindings, a⟩ v name args)
      (callMethod ⟨extra, bindings.map (deepenBinding k), b⟩ (v.deepen k) name
        (args.deepen k)) := by
  cases v with
  | map entries =>
      have found := atKey?_deepen (k := k) (ofString name) entries
      rw [deepen_ofString] at found
      rw [deepen_map, callMethod, callMethod, found]
      cases atKey? (ofString name) entries with
      | none => exact .error _
      | some callee => exact callValue_follows calls callee args
  | renderer r =>
      rw [deepen_renderer]
      exact .error _
  | list items =>
      rw [deepen_list]
      exact .error _
  | iter items sized =>
      rw [deepen_iter]
      exact .error _
  | _ => exact .error _

theorem callName_follows (name : String) (args : Args) :
    Follows F (Value.deepen k) (callName ⟨extra, bindings, a⟩ name args)
      (callName ⟨extra, bindings.map (deepenBinding k), b⟩ name (args.deepen k)) := by
  unfold callName
  rw [Args.all_deepen, List.isEmpty_map, List.length_map]
  apply Follows.ite (.error _)
  apply Follows.ite (.error _)
  rw [lookup?_deepen (a := a)]
  cases Env.lookup? ⟨extra, bindings, a⟩ name with
  | none => exact .error _
  | some callee => exact callValue_follows calls callee args

theorem closed_deepening : (deepening k F).Closed fun deep =>
    bif deep then ⟨extra, bindings.map (deepenBinding k), b⟩ else ⟨extra, bindings, a⟩ where
  null := fixed_deepening rfl
  undefined := fixed_deepening rfl
  bool b := fixed_deepening rfl
  int n := fixed_deepening rfl
  float x := fixed_deepening rfl
  text s := fixed_deepening (deepen_ofString s)
  list {vs} _ := ⟨trivial, Bool.forall_bool.mpr
    ⟨(congrArg Value.list (List.map_id vs)).symm, deepen_list vs⟩⟩
  ofEntries {entries} _ := ⟨trivial, Bool.forall_bool.mpr
    ⟨(congrArg ofEntries (List.map_id entries)).symm, (ofEntries_deepen entries).symm⟩⟩
  isTrue {v} _ := Bool.forall_bool.mpr ⟨rfl, isTrue_deepen v⟩
  lookup name := gives_deepening <| .of_eq <| by
    simp only [cond_true, cond_false]
    rw [lookup?_deepen (a := a)]
    cases Env.lookup? ⟨extra, bindings, a⟩ name with
    | none => rfl
    | some v => rfl
  neg {v} _ := gives_deepening (.of_eq (neg_deepen v))
  apply op {v w} _ _ := gives_deepening (.of_eq (op.apply_deepen v w))
  getAttr name {v} _ := gives_deepening (.of_eq (getAttr_deepen v name))
  getItem {v key} _ _ := gives_deepening (.of_eq (getItem_deepen v key))
  slice {v start stop step} _ _ _ _ := gives_deepening (.of_eq (slice_deepen v start stop step))
  applyFilter name {v args} _ _ := gives_deepening (.of_eq (applyFilter_deepen name v args))
  applyTest name {v args} _ _ := by
    refine alike_of_follows (.of_eq ?_) (fun _ => trivial) fun _ => rfl
    exact (applyTest_deepen name v args).trans (id_map _).symm
  ofGiven {positional named} _ _ := by
    refine alike_of_follows (.of_eq ?_) (fun _ => trivial) fun _ => rfl
    simpa [deepening] using ofGiven_deepen positional named
  callName name {args} _ := gives_deepening (callName_follows calls name args)
  callMethod name {v args} _ _ := gives_deepening (callMethod_follows calls v name args)
  callValue {v args} _ _ := gives_deepening (callValue_follows calls v args)
  unknownBlock name := gives_deepening (.error _)

theorem eval_follows (e : Expr) :
    Follows F (Value.deepen k) (eval ⟨extra, bindings, a⟩ e)
      (eval ⟨extra, bindings.map (deepenBinding k), b⟩ e) :=
  follows_of_alike (eval_alike (closed_deepening calls) e)

end

end Expr

end Haml
