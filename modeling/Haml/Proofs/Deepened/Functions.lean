import Haml.Proofs.Deepened.Operators
/-! Functions and tests of deepened values: they see nothing of how much callables have counted, and
hand the callables on as they are. -/

namespace Haml

open Value

variable {k : Nat}

namespace Expr

/-! Arguments. -/

def Args.deepen (k : Nat) (args : Args) : Args :=
  ⟨args.values.map (Value.deepen k), args.named.map (List.map (deepenBinding k))⟩

namespace Args

theorem namedMap_deepen (entries : List (String × Value)) :
    namedMap (entries.map (deepenBinding k)) = (namedMap entries).deepen k := by
  rw [namedMap, namedMap, ← ofEntries_deepen, List.map_map, List.map_map]
  rfl

theorem all_deepen (args : Args) : (args.deepen k).all = args.all.map (Value.deepen k) := by
  obtain ⟨values, named⟩ := args
  cases named with
  | none => simp [all, deepen]
  | some entries => simp [all, deepen, namedMap_deepen]

theorem lookup_deepen (name : String) (entries : List (String × Value)) :
    (entries.map (deepenBinding k)).lookup name = (entries.lookup name).map (Value.deepen k) := by
  induction entries with
  | nil => rfl
  | cons entry rest ih =>
      obtain ⟨found, v⟩ := entry
      rw [List.map_cons, deepenBinding_mk, List.lookup_cons, List.lookup_cons, ih]
      split
      · rfl
      · rfl

theorem named_deepen (args : Args) :
    (args.deepen k).named.getD [] = (args.named.getD []).map (deepenBinding k) := by
  obtain ⟨values, named⟩ := args
  cases named with
  | none => rfl
  | some entries => rfl

theorem named?_deepen (args : Args) (name : String) :
    (args.deepen k).named? name = (args.named? name).map (Value.deepen k) := by
  rw [named?, named?, named_deepen, lookup_deepen]

theorem find?_unlisted_deepen (names : List String) (entries : List (String × Value)) :
    (entries.map (deepenBinding k)).find? (fun (n, _) => n ∉ names) =
      (entries.find? fun (n, _) => n ∉ names).map (deepenBinding k) :=
  List.find?_map ..

theorem allow_deepen (args : Args) (names : List String) :
    (args.deepen k).allow names = args.allow names := by
  rw [allow, allow, named_deepen, find?_unlisted_deepen]
  cases List.find? _ (args.named.getD []) with
  | none => rfl
  | some entry => rfl

theorem atMost_deepen (most : Nat) (values : List Value) :
    atMost most (values.map (Value.deepen k)) = List.map (Value.deepen k) <$> atMost most values := by
  rw [atMost, atMost, List.length_map]
  split
  · rfl
  · rfl

theorem optional_deepen (values : List Value) (i : Nat) :
    optional (values.map (Value.deepen k)) i = (optional values i).map (Value.deepen k) := by
  rw [optional, optional, List.getElem?_map]
  cases values[i]? with
  | none => rfl
  | some v =>
      simp only [Option.map_some, isAbsent_deepen]
      split
      · rfl
      · rfl

theorem required_deepen (values : List Value) (i : Nat) :
    required (values.map (Value.deepen k)) i = Value.deepen k <$> required values i := by
  rw [required, required, List.getElem?_map]
  cases values[i]? with
  | none => rfl
  | some v => rfl

theorem text_deepen (values : List Value) (i : Nat) :
    text (values.map (Value.deepen k)) i = text values i := by
  rw [text, text, required_deepen]
  cases required values i with
  | error fault => rfl
  | ok v => exact congrArg Except.ok (display_deepen v)

theorem optionalText_deepen (values : List Value) (i : Nat) :
    optionalText (values.map (Value.deepen k)) i = optionalText values i := by
  rw [optionalText, optionalText, optional_deepen, Option.map_map]
  exact congrArg (Option.map · _) (funext fun v => display_deepen v)

theorem toBool_deepen (v : Value) : toBool (v.deepen k) = toBool v := by
  cases v with
  | bool b => rfl
  | _ => exact congrArg (fun kind => Except.error (Fault.notConvertible kind "bool")) (kind_deepen _)

theorem toWord_deepen (bits : Nat) (target : String) (v : Value) :
    toWord bits target (v.deepen k) = toWord bits target v := by
  rw [toWord, toWord, toInt?_deepen, kind_deepen]

theorem optionalWord_deepen (bits : Nat) (target : String) (values : List Value) (i : Nat) :
    optionalWord bits target (values.map (Value.deepen k)) i =
      optionalWord bits target values i := by
  rw [optionalWord, optionalWord, optional_deepen]
  cases optional values i with
  | none => rfl
  | some v => exact congrArg (some <$> ·) (toWord_deepen bits target v)

theorem flag_deepen (args : Args) (name : String) : (args.deepen k).flag name = args.flag name := by
  rw [flag, flag, named?_deepen]
  cases args.named? name with
  | none => rfl
  | some v => simp only [Option.map_some, isAbsent_deepen, toBool_deepen]

end Args

/-! Functions. -/

theorem Functions.ofNamed_deepen (args : Args) :
    ((args.deepen k).named.getD []).map (fun (name, v) => (ofString name, v)) =
      ((args.named.getD []).map fun (name, v) => (ofString name, v)).map (deepenEntry k) := by
  rw [Args.named_deepen, List.map_map, List.map_map]
  rfl

theorem Functions.dict_deepen (args : Args) : dict (args.deepen k) = Value.deepen k <$> dict args := by
  unfold dict
  rw [ofNamed_deepen]
  apply bind_natural (Args.atMost_deepen 1 args.values)
  intro values
  dsimp only
  rw [Args.optional_deepen]
  cases Args.optional values 0 with
  | none => exact congrArg Except.ok (ofEntries_deepen _)
  | some v =>
      cases v with
      | map entries =>
          simp only [Option.map_some, deepen_map, ← List.map_append, ofEntries_deepen]
          rfl
      | renderer r => exact congrArg Except.ok (ofEntries_deepen _)
      | _ => rfl

theorem Functions.range_deepen (args : Args) :
    range (args.deepen k) = Value.deepen k <$> range args := by
  unfold range
  rw [Args.all_deepen, Args.optionalWord_deepen, Args.optionalWord_deepen]
  apply bind_natural (Args.required_deepen args.all 0)
  intro bound
  rw [Args.toWord_deepen]
  apply bind_same
  intro bound
  apply bind_same
  intro stop
  apply bind_same
  intro step
  apply bind_natural (Args.atMost_deepen 3 args.all)
  intro _
  have counted (numbers : List Int) :
      Value.deepen k (.iter (numbers.map .int) true) = .iter (numbers.map .int) true := by
    rw [deepen_iter, List.map_map]
    rfl
  cases stop with
  | none => exact bind_same _ fun numbers => congrArg Except.ok (counted numbers).symm
  | some stop => exact bind_same _ fun numbers => congrArg Except.ok (counted numbers).symm

theorem Function.run_deepen (f : Function) (args : Args) :
    f.run (args.deepen k) = Value.deepen k <$> f.run args := by
  cases f with
  | range => exact Functions.range_deepen args
  | dict => exact Functions.dict_deepen args
  | raise =>
      rw [Function.run, Functions.raise, Args.all_deepen]
      apply bind_natural (Args.atMost_deepen 1 args.all)
      intro values
      rw [Args.text_deepen]
      exact bind_same _ fun _ => rfl
  | shout =>
      rw [Function.run, Functions.shout, Args.all_deepen]
      apply bind_natural (Args.atMost_deepen 1 args.all)
      intro values
      rw [Args.text_deepen]
      exact bind_same _ fun _ => rfl

/-! Tests. -/

namespace Test

def Uniform (k : Nat) (t : Test) : Prop :=
  ∀ v args, t (v.deepen k) (args.map (Value.deepen k)) = t v args

theorem bind_atMost {α : Type} (most : Nat) (values : List Value)
    {f f' : List Value → Except Fault α}
    (same : ∀ values, f' (values.map (Value.deepen k)) = f values) :
    Args.atMost most (values.map (Value.deepen k)) >>= f' = Args.atMost most values >>= f := by
  rw [Args.atMost_deepen]
  cases Args.atMost most values with
  | error fault => rfl
  | ok values => exact same values

theorem simple_uniform {p : Value → Bool} (same : ∀ v : Value, p (v.deepen k) = p v) :
    Uniform k (simple p) := by
  intro v args
  unfold simple
  apply bind_atMost
  intro _
  rw [same]

theorem against_uniform {p : Value → Value → Bool}
    (same : ∀ v w : Value, p (v.deepen k) (w.deepen k) = p v w) : Uniform k (against p) := by
  intro v args
  unfold against
  apply bind_atMost
  intro args
  rw [Args.required_deepen]
  cases Args.required args 0 with
  | error fault => rfl
  | ok w => exact congrArg Except.ok (same v w)

theorem againstText_uniform (p : List Char → List Char → Bool) : Uniform k (againstText p) := by
  intro v args
  unfold againstText
  apply bind_atMost
  intro args
  rw [Args.text_deepen, display_deepen]

theorem isIn_uniform : Uniform k isIn := by
  intro v args
  unfold isIn
  apply bind_atMost
  intro args
  rw [Args.required_deepen]
  cases Args.required args 0 with
  | error fault => rfl
  | ok w => exact congrArg (fun found => Except.ok (found.toOption.getD false)) (contains_deepen w v)

theorem isWhole_deepen (v : Value) : isWhole (v.deepen k) = isWhole v := by
  cases v <;> rfl

theorem isFloat_deepen (v : Value) : isFloat (v.deepen k) = isFloat v := by
  cases v <;> rfl

theorem isTruth_deepen (b : Bool) (v : Value) : isTruth b (v.deepen k) = isTruth b v := by
  cases v <;> rfl

theorem isOdd_deepen (v : Value) : isOdd (v.deepen k) = isOdd v := by
  rw [isOdd, isOdd, toInt?_deepen]

theorem isEven_deepen (v : Value) : isEven (v.deepen k) = isEven v := by
  rw [isEven, isEven, toInt?_deepen]

theorem divides_deepen (v w : Value) : divides (v.deepen k) (w.deepen k) = divides v w := by
  rw [divides, divides, coerce_deepen]

theorem iterable_deepen (v : Value) : (v.deepen k).items?.isSome = v.items?.isSome := by
  rw [items?_deepen, Option.isSome_map]

theorem uniform_of_mem_table : ∀ entry ∈ table, Uniform k entry.2 := by
  have kinds (wanted : Kind → Bool) : Uniform k (simple fun v => wanted v.kind) :=
    simple_uniform fun v => congrArg wanted (kind_deepen v)
  have orders (wanted : Ordering → Bool) : Uniform k (against fun v w => wanted (v.compare w)) :=
    against_uniform fun v w => congrArg wanted (compare_deepen v w)
  have equals (wanted : Bool → Bool) : Uniform k (against fun v w => wanted (v.equal w)) :=
    against_uniform fun v w => congrArg wanted (equal_deepen v w)
  simp only [table, List.forall_mem_cons]
  exact ⟨kinds (· != .undefined), kinds (· == .undefined), kinds (· == .none), kinds (· == .string),
    kinds (· == .number), simple_uniform isWhole_deepen, simple_uniform isWhole_deepen,
    simple_uniform isFloat_deepen, kinds (· == .bool), simple_uniform isOdd_deepen,
    simple_uniform isEven_deepen, kinds (· == .map), kinds (· == .sequence),
    simple_uniform iterable_deepen, simple_uniform (isTruth_deepen true),
    simple_uniform (isTruth_deepen false), simple_uniform isSafe_deepen,
    simple_uniform isSafe_deepen, against_uniform divides_deepen, isIn_uniform, equals id,
    equals id, equals id, equals (!·), equals (!·), orders (· == .lt), orders (· == .lt),
    orders (· == .lt), orders (· != .gt), orders (· != .gt), orders (· == .gt), orders (· == .gt),
    orders (· == .gt), orders (· != .lt), orders (· != .lt), againstText_uniform _,
    againstText_uniform _, nofun⟩

theorem uniform_of_lookup {name : String} {t : Test} (found : table.lookup name = some t) :
    Uniform k t := by
  obtain ⟨before, after, entries, -⟩ := List.lookup_eq_some_iff.mp found
  refine uniform_of_mem_table (name, t) ?_
  rw [entries]
  exact List.mem_append_right before (List.mem_cons_self ..)

end Test

theorem applyTest_deepen (name : String) (v : Value) (args : Args) :
    applyTest name (v.deepen k) (args.deepen k) = applyTest name v args := by
  unfold applyTest
  rw [Args.all_deepen]
  split
  · next found => exact Test.uniform_of_lookup found v args.all
  · rfl

end Expr

end Haml
