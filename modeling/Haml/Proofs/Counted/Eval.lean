import Haml.Proofs.Comparison
import Haml.Proofs.Counted.Filters
/-! Evaluation calls no callables but those that are bound, and gives no others. -/

namespace Haml

open Value

variable {n : Nat}

namespace Expr

theorem namedEntries_counted {args : List (ArgForm × Value)}
    (counted : ∀ arg ∈ args, arg.2.Counted n) :
    Gives (fun entries : List (String × Value) => ∀ entry ∈ entries, entry.2.Counted n)
      (namedEntries args) := by
  induction args with
  | nil => exact .ok nofun
  | cons arg args ih =>
      obtain ⟨form, v⟩ := arg
      obtain ⟨here, rest⟩ := List.forall_mem_cons.mp counted
      cases form with
      | named name =>
          exact (ih rest).map fun entries others => List.forall_mem_cons.mpr ⟨here, others⟩
      | positional | spread | spreadNamed =>
          cases here with
          | map keys values =>
              refine (ih rest).map fun entries others => List.forall_mem_append.mpr ⟨?_, others⟩
              exact List.forall_mem_map.mpr values
          | renderer => exact ih rest
          | _ => exact .error _

theorem positionalValues_counted {args : List (ArgForm × Value)}
    (counted : ∀ arg ∈ args, arg.2.Counted n) :
    Gives (fun values => ∀ v ∈ values, v.Counted n) (positionalValues args) := by
  induction args with
  | nil => exact .ok nofun
  | cons arg args ih =>
      obtain ⟨form, v⟩ := arg
      obtain ⟨here, rest⟩ := List.forall_mem_cons.mp counted
      cases form with
      | spread =>
          refine (items_counted here).bind fun items all => (ih rest).bind fun values others => ?_
          exact .ok (List.forall_mem_append.mpr ⟨all, others⟩)
      | _ => exact (ih rest).map fun values others => List.forall_mem_cons.mpr ⟨here, others⟩

theorem ofGiven_counted {positional named : List (ArgForm × Value)}
    (values : ∀ arg ∈ positional, arg.2.Counted n) (entries : ∀ arg ∈ named, arg.2.Counted n) :
    Gives (Args.Counted n) (Args.ofGiven positional named) := by
  refine (namedEntries_counted entries).bind fun entries namedCounted => ?_
  refine (positionalValues_counted values).bind fun values counted => .ok ⟨counted, ?_⟩
  dsimp only
  split
  · exact nofun
  · exact Dict.forall_merge nofun namedCounted

/-- Two ways of answering calls that come out the same for callables that have counted at least `n`
renders, and never hand out others. -/
def AgreeFrom (n : Nat) (a b : Renderer Value → List Value → Except Fault Value) : Prop :=
  ∀ r args, n ≤ r.depth → (∀ v ∈ args, v.Counted n) →
    Agree (Value.Counted n) (a r args) (b r args)

def counting (n : Nat) : Comparison Bool where
  Fit := Value.Counted n
  FitArgs := Args.Counted n
  seen _ := id
  seenArgs _ := id
  Fails x := ∃ e, ∀ other, x other = .error e
  fails_bind f := by
    rintro ⟨e, same⟩
    exact ⟨e, fun other => congrArg (· >>= f other) (same other)⟩

theorem alike_of_agree {α : Type} {P : α → Prop} {x : Bool → Except Fault α}
    (agree : Agree P (x false) (x true)) : (counting n).Alike P (fun _ => id) x := by
  obtain ⟨same, gives⟩ := agree
  cases result : x false with
  | ok a =>
      rw [result] at same
      exact .ok a (gives a result) (Bool.forall_bool.mpr ⟨result, same.symm⟩)
  | error e =>
      rw [result] at same
      exact .fails ⟨e, Bool.forall_bool.mpr ⟨result, same.symm⟩⟩

theorem agree_of_alike {x : Bool → Except Fault Value} (alike : (counting n).Gives x) :
    Agree (Value.Counted n) (x false) (x true) := by
  cases alike with
  | ok v counted same =>
      rw [same, same]
      exact .ok counted
  | fails failing =>
      obtain ⟨e, same⟩ := failing
      rw [same, same]
      exact .error e

theorem alike_of_counted {α : Type} {P : α → Prop} {x : Except Fault α} (gives : Gives P x) :
    (counting n).Alike P (fun _ => id) fun _ => x :=
  alike_of_agree (.of_gives gives)

section

variable {extra : List Function} {bindings : Dict Value}
  {a b : Renderer Value → List Value → Except Fault Value}
  (bound : ∀ entry ∈ bindings, entry.2.Counted n)

include bound

theorem counted_of_lookup? {name : String} {v : Value}
    (found : Env.lookup? ⟨extra, bindings, a⟩ name = some v) : v.Counted n := by
  rcases Option.or_eq_some_iff.mp found with here | ⟨-, global⟩
  · exact bound _ (Dict.mem_of_find? here)
  · unfold Env.global? at global
    split at global
    · cases global
      exact .null
    · obtain ⟨f, -, rfl⟩ := Option.map_eq_some_iff.mp global
      exact .function f

end

section

variable {extra : List Function} {bindings : Dict Value}
  {a b : Renderer Value → List Value → Except Fault Value} (calls : AgreeFrom n a b)

include calls

theorem callValue_agree {callee : Value} {args : Args} (counted : callee.Counted n)
    (given : args.Counted n) :
    Agree (Value.Counted n) (callValue ⟨extra, bindings, a⟩ callee args)
      (callValue ⟨extra, bindings, b⟩ callee args) := by
  cases counted with
  | function f => exact .of_gives (run_counted f given)
  | renderer deep => exact calls _ _ deep given.all
  | _ => exact .error _

theorem callMethod_agree {v : Value} {args : Args} (name : String) (counted : v.Counted n)
    (given : args.Counted n) :
    Agree (Value.Counted n) (callMethod ⟨extra, bindings, a⟩ v name args)
      (callMethod ⟨extra, bindings, b⟩ v name args) := by
  unfold callMethod
  split
  · split
    · next found => exact callValue_agree calls (counted_of_atKey? counted found) given
    · exact .error _
  · exact .error _

variable (bound : ∀ entry ∈ bindings, entry.2.Counted n)

include bound

theorem callName_agree {args : Args} (name : String) (given : args.Counted n) :
    Agree (Value.Counted n) (callName ⟨extra, bindings, a⟩ name args)
      (callName ⟨extra, bindings, b⟩ name args) := by
  unfold callName
  split
  · exact .error _
  · split
    · exact .error _
    · have same : Env.lookup? ⟨extra, bindings, a⟩ name =
          Env.lookup? ⟨extra, bindings, b⟩ name := rfl
      rw [← same]
      split
      · next found => exact callValue_agree calls (counted_of_lookup? bound found) given
      · exact .error _

theorem closed_counting : (counting n).Closed fun other =>
    bif other then ⟨extra, bindings, b⟩ else ⟨extra, bindings, a⟩ where
  null := ⟨.null, fun _ => rfl⟩
  undefined := ⟨.undefined, fun _ => rfl⟩
  bool b := ⟨.bool b, fun _ => rfl⟩
  int n := ⟨.int n, fun _ => rfl⟩
  float x := ⟨.float x, fun _ => rfl⟩
  text s := ⟨.text .., fun _ => rfl⟩
  list {vs} all := ⟨.list all, fun _ => (congrArg Value.list (List.map_id vs)).symm⟩
  ofEntries {entries} all := by
    refine ⟨counted_ofEntries ⟨?_, ?_⟩, fun _ => (congrArg ofEntries (List.map_id entries)).symm⟩
    · exact fun entry member => (all entry member).1
    · exact fun entry member => (all entry member).2
  isTrue _ _ := rfl
  lookup name :=
    alike_of_agree (.ok (counted_getD fun _ found => counted_of_lookup? (a := a) bound found))
  neg {v} _ := alike_of_counted (neg_counted v)
  apply op _ _ first second := alike_of_counted (op.apply_counted first second)
  getAttr name _ counted := alike_of_counted (getAttr_counted counted name)
  getItem {_ key} counted _ := alike_of_counted (getItem_counted counted key)
  slice {_ start stop step} counted _ _ _ :=
    alike_of_counted (slice_counted counted start stop step)
  applyFilter name _ _ counted given := alike_of_counted (Filters.applyWith_counted given counted)
  applyTest name {v args} _ _ := alike_of_counted (.any (applyTest name v args))
  ofGiven values entries := by
    simpa [counting] using alike_of_counted (ofGiven_counted values entries)
  callName name _ given := alike_of_agree (callName_agree calls bound name given)
  callMethod name _ _ counted given := alike_of_agree (callMethod_agree calls name counted given)
  callValue counted given := alike_of_agree (callValue_agree calls counted given)
  unknownBlock name := alike_of_counted (.error _)

/-- Evaluation calls and gives no callables but those that are bound. -/
theorem eval_agree (e : Expr) :
    Agree (Value.Counted n) (eval ⟨extra, bindings, a⟩ e) (eval ⟨extra, bindings, b⟩ e) :=
  agree_of_alike (eval_alike (closed_counting calls bound) e)

end

end Expr

end Haml
