import Haml.Proofs.Counted
/-! Callables in the values that functions and filters give: they are among those of the values they
are given. -/

namespace Haml

open Value

variable {n : Nat}

namespace Expr

/-! Arguments. -/

structure Args.Counted (n : Nat) (args : Args) : Prop where
  values : ∀ v ∈ args.values, v.Counted n
  named : ∀ entry ∈ args.named.getD [], entry.2.Counted n

namespace Args

theorem countedEntries_named {entries : List (String × Value)}
    (counted : ∀ entry ∈ entries, entry.2.Counted n) {f : String × Value → Value × Value}
    (keeps : ∀ entry, f entry = (.ofString entry.1, entry.2)) :
    CountedEntries n (entries.map f) := by
  refine ⟨List.forall_mem_map.mpr fun entry _ => ?_, List.forall_mem_map.mpr fun entry member => ?_⟩
  · rw [keeps]
    exact .text ..
  · rw [keeps]
    exact counted entry member

theorem Counted.all {args : Args} (counted : args.Counted n) : ∀ v ∈ args.all, v.Counted n := by
  refine List.forall_mem_append.mpr ⟨counted.values, fun v member => ?_⟩
  obtain ⟨entries, given, rfl⟩ := Option.map_eq_some_iff.mp (Option.mem_toList.mp member)
  have named := counted.named
  rw [given] at named
  exact counted_ofEntries (countedEntries_named named fun _ => rfl)

theorem Counted.of_named? {args : Args} (counted : args.Counted n) {name : String} {v : Value}
    (found : args.named? name = some v) : v.Counted n := by
  obtain ⟨before, after, entries, -⟩ := List.lookup_eq_some_iff.mp found
  refine counted.named (name, v) ?_
  rw [entries]
  exact List.mem_append_right before (List.mem_cons_self ..)

theorem atMost_counted (most : Nat) {values : List Value} (counted : ∀ v ∈ values, v.Counted n) :
    Gives (fun values => ∀ v ∈ values, v.Counted n) (atMost most values) :=
  .ite (.error _) (.ok counted)

theorem counted_of_optional {values : List Value} (counted : ∀ v ∈ values, v.Counted n) {i : Nat}
    {v : Value} (found : optional values i = some v) : v.Counted n := by
  unfold optional at found
  split at found
  · next here =>
      split at found
      · cases found
      · cases found
        exact counted_getElem? counted here
  · cases found

end Args

/-! Functions. -/

theorem Functions.dict_counted {args : Args} (counted : args.Counted n) :
    Gives (Value.Counted n) (dict args) := by
  refine (Args.atMost_counted 1 counted.values).bind fun values all => ?_
  split
  · next entries found =>
      cases Args.counted_of_optional all found with
      | map keys values =>
          refine .ok (counted_ofEntries (countedEntries_append ⟨keys, values⟩ ?_))
          exact Args.countedEntries_named counted.named fun _ => rfl
  · exact .ok (counted_ofEntries (Args.countedEntries_named counted.named fun _ => rfl))
  · exact .ok (counted_ofEntries (Args.countedEntries_named counted.named fun _ => rfl))
  · exact .error _

theorem Functions.range_counted (args : Args) : Gives (Value.Counted n) (range args) := by
  refine .after fun first => .after fun bound => .after fun stop => .after fun step =>
    .after fun _ => ?_
  have counted (numbers : List Int) :
      Gives (Value.Counted n) (.ok (.iter (numbers.map .int) true) : Except Fault Value) :=
    .ok (.iter true (List.forall_mem_map.mpr fun i _ => .int i))
  cases stop with
  | none => exact .after counted
  | some stop => exact .after counted

theorem run_counted (f : Function) {args : Args} (counted : args.Counted n) :
    Gives (Value.Counted n) (f.run args) := by
  cases f with
  | range => exact Functions.range_counted args
  | dict => exact Functions.dict_counted counted
  | raise => exact .after fun _ => .after fun _ => .error _
  | shout => exact .after fun _ => .after fun _ => .ok (.text ..)

namespace Filters

def Keeps (n : Nat) (f : Transform) : Prop :=
  ∀ v args, v.Counted n → args.Counted n → Gives (Value.Counted n) (f v args)

/-! Filters that give texts and numbers. -/

theorem ofText_keeps (f : List Char → List Char) : Keeps n (ofText f) := by
  intro v args _ _
  exact .after fun _ => .ok (.text ..)

theorem replace_keeps : Keeps n replace := by
  intro v args _ _
  exact .after fun _ => .after fun _ => .after fun _ => .ok (.text ..)

theorem trim_keeps : Keeps n trim := by
  intro v args _ _
  exact .after fun _ => .ok (.text ..)

theorem length_keeps : Keeps n length := by
  intro v args _ _
  refine .after fun _ => ?_
  split
  · exact .ok (.int _)
  · exact .error _

theorem join_keeps : Keeps n join := by
  intro v args _ _
  refine .after fun _ => .ite (.ok (.text ..)) ?_
  cases v.items? with
  | none => exact .error _
  | some items => exact .ok (.text ..)

theorem split_keeps : Keeps n split := by
  intro v args _ _
  refine .after fun most => .after fun values => .ok (.iter false ?_)
  exact List.forall_mem_map.mpr fun piece _ => .text ..

theorem lines_keeps : Keeps n lines := by
  intro v args _ _
  exact .after fun _ => .ok (.list (List.forall_mem_map.mpr fun line _ => .text ..))

theorem round_keeps : Keeps n round := by
  intro v args _ _
  refine .after fun places => .after fun _ => ?_
  cases v with
  | int i => exact .ok (.int i)
  | float x => exact .ok (.float _)
  | _ => exact .error _

theorem abs_keeps : Keeps n abs := by
  intro v args _ _
  refine .after fun _ => ?_
  cases v with
  | int i => exact .ok (.int _)
  | float x => exact .ok (.float _)
  | _ => exact .error _

theorem toInt_keeps : Keeps n toInt := by
  intro v args _ _
  refine .after fun _ => ?_
  split
  · exact .ok (.int _)
  · exact .ok (.int _)
  · exact .ok (.int _)
  · exact .ok (.int _)
  · exact .ok (.int _)
  · split
    · exact .ok (.int _)
    · split
      · exact .ok (.int _)
      · exact .error _
  · exact .error _

theorem toFloat_keeps : Keeps n toFloat := by
  intro v args _ _
  refine .after fun _ => ?_
  split
  · exact .ok (.float _)
  · exact .ok (.float _)
  · split
    · exact .ok (.float _)
    · exact .error _
  · split
    · exact .ok (.float _)
    · exact .error _

theorem toText_keeps : Keeps n toText := by
  intro v args _ _
  refine .after fun _ => ?_
  split
  · exact .ok (.text ..)
  · exact .ok (.text ..)

theorem toBool_keeps : Keeps n toBool := by
  intro v args _ _
  exact .after fun _ => .ok (.bool _)

theorem escape_keeps : Keeps n escape := by
  intro v args _ _
  refine .after fun _ => ?_
  split
  · refine .ok ?_
    split
    · exact .text ..
    · exact .text ..
  · split
    · exact .ok (.text ..)
    · exact .ok (.text ..)
    · exact .ok (.text ..)
    · exact .ok (.text ..)
    · exact .ok (.text ..)

theorem safe_keeps : Keeps n safe := by
  intro v args _ _
  exact .after fun _ => .ok (.text ..)

/-! Filters that give parts of values. -/

theorem entries_counted {v : Value} (counted : v.Counted n) :
    Gives (CountedEntries n) (entries v) := by
  cases counted with
  | map keys values => exact .ok ⟨keys, values⟩
  | renderer => exact .ok ⟨nofun, nofun⟩
  | _ => exact .error _

theorem pairs_counted {entries : List (Value × Value)} (counted : CountedEntries n entries) :
    (pairs entries).Counted n := by
  refine .list (List.forall_mem_map.mpr fun entry member => .list ?_)
  refine List.forall_mem_cons.mpr ⟨counted.1 entry member, ?_⟩
  exact List.forall_mem_singleton.mpr (counted.2 entry member)

theorem pairList_keeps : Keeps n pairList := by
  intro v args counted _
  exact .after fun _ => (entries_counted counted).bind fun _ all => .ok (pairs_counted all)

theorem mem_of_mem_sortBy {α : Type} {key : α → Value} {caseSensitive reverse : Bool} {xs : List α}
    {x : α} (member : x ∈ sortBy key caseSensitive reverse xs) : x ∈ xs := by
  unfold sortBy at member
  cases reverse with
  | true => exact (List.mergeSort_perm xs _).mem_iff.mp (List.mem_reverse.mp member)
  | false => exact (List.mergeSort_perm xs _).mem_iff.mp member

theorem listItems_counted {v : Value} (counted : v.Counted n) :
    Gives (fun items => ∀ item ∈ items, item.Counted n) (listItems v) := by
  unfold listItems
  split
  · next found => exact .ok (counted_items? counted found)
  · exact .error _

theorem sort_keeps : Keeps n sort := by
  intro v args counted _
  refine .after fun _ => (listItems_counted counted).bind fun items all => ?_
  refine .after fun _ => .after fun _ => .after fun _ => .after fun _ => ?_
  exact .ok (.list fun item member => all item (mem_of_mem_sortBy member))

theorem dictsort_keeps : Keeps n dictsort := by
  intro v args counted _
  refine .after fun _ => (entries_counted counted).bind fun items all => ?_
  have sorted (byValue : Bool) : Gives (Value.Counted n) (do
      let caseSensitive ← args.flag "case_sensitive"
      let reverse ← args.flag "reverse"
      args.allow ["by", "case_sensitive", "reverse"]
      let key := if byValue then Prod.snd else Prod.fst
      return pairs (sortBy key caseSensitive reverse items)) := by
    refine .after fun caseSensitive => .after fun reverse => .after fun _ => .ok ?_
    exact pairs_counted ⟨fun entry member => all.1 entry (mem_of_mem_sortBy member),
      fun entry member => all.2 entry (mem_of_mem_sortBy member)⟩
  split
  · exact .after sorted
  · exact .after sorted
  · exact .ite (.after sorted) (.after sorted)
  · exact .after sorted

theorem mem_of_mem_distinct {key : Value → Value} {seen items : List Value} {v : Value}
    (member : v ∈ distinct key seen items) : v ∈ items := by
  induction items generalizing seen with
  | nil => simp [distinct] at member
  | cons item rest ih =>
      unfold distinct at member
      split at member
      · exact List.mem_cons_of_mem item (ih member)
      · rcases List.mem_cons.mp member with rfl | later
        · exact List.mem_cons_self ..
        · exact List.mem_cons_of_mem item (ih later)

theorem unique_keeps : Keeps n unique := by
  intro v args counted _
  refine .after fun _ => .after fun path => .after fun caseSensitive => .after fun _ => ?_
  refine (items_counted counted).bind fun items all => .ok (.list fun item member => ?_)
  exact all item (mem_of_mem_distinct member)

theorem first_keeps : Keeps n first := by
  intro v args counted _
  refine .after fun _ => ?_
  cases counted with
  | text s safe =>
      refine .ok (counted_getD fun v found => ?_)
      obtain ⟨c, -, rfl⟩ := Option.map_eq_some_iff.mp found
      exact .text ..
  | list items => exact .ok (counted_getD fun v found => items v (List.mem_of_head? found))
  | iter sized items => exact .ok (counted_getD fun v found => items v (List.mem_of_head? found))
  | map keys values =>
      refine .ok (counted_getD fun v found => ?_)
      obtain ⟨entry, head, rfl⟩ := Option.map_eq_some_iff.mp found
      exact keys entry (List.mem_of_head? head)
  | renderer => exact .ok .undefined
  | _ => exact .error _

theorem last_keeps : Keeps n last := by
  intro v args counted _
  refine .after fun _ => ?_
  cases counted with
  | text s safe =>
      refine .ok (counted_getD fun v found => ?_)
      obtain ⟨c, -, rfl⟩ := Option.map_eq_some_iff.mp found
      exact .text ..
  | list items => exact .ok (counted_getD fun v found => items v (List.mem_of_getLast? found))
  | iter sized items => exact .ok (counted_getD fun v found => items v (List.mem_of_getLast? found))
  | _ => exact .error _

theorem reverse_keeps : Keeps n reverse := by
  intro v args counted _
  refine .after fun _ => ?_
  split
  · exact .ok .undefined
  · exact .ok .null
  · exact .ok (.text ..)
  · split
    · next found =>
        refine .ok (.iter true fun item member => ?_)
        exact counted_items? counted found item (List.mem_reverse.mp member)
    · exact .error _

theorem orDefault_keeps : Keeps n orDefault := by
  intro v args counted given
  have other : ((Args.optional args.all 0).getD (.ofString "")).Counted n := by
    cases found : Args.optional args.all 0 with
    | none => exact .text ..
    | some other => exact Args.counted_of_optional given.all found
  unfold orDefault
  cases Args.optional args.all 1 with
  | none | some _ =>
      refine .after fun lax => .after fun _ => ?_
      split
      · exact .ok other
      · refine .ok ?_
        split
        · exact other
        · exact counted

theorem attr_keeps : Keeps n attr := by
  intro v args counted _
  exact .after fun _ => .after fun key => getItem_counted counted key

theorem toList_keeps : Keeps n toList := by
  intro v args counted _
  exact .after fun _ => (listItems_counted counted).bind fun items all => .ok (.list all)

theorem sum_keeps : Keeps n sum := by
  intro v args counted _
  refine .after fun _ => (items_counted counted).bind fun items all => ?_
  refine .foldlM (fun total item member here => ?_) (.int 0)
  split
  · exact .ok here
  · exact .ite (add_counted here (all item member)) (.error _)

theorem foldl_mem {α : Type} {f : α → α → α} (chooses : ∀ x y, f x y = x ∨ f x y = y) (x : α)
    (xs : List α) : xs.foldl f x ∈ x :: xs := by
  induction xs generalizing x with
  | nil => exact List.mem_cons_self ..
  | cons y ys ih =>
      rcases List.mem_cons.mp (ih (f x y)) with here | later
      · rw [List.foldl_cons, here]
        rcases chooses x y with same | other
        · rw [same]
          exact List.mem_cons_self ..
        · rw [other]
          exact List.mem_cons_of_mem x (List.mem_cons_self ..)
      · exact List.mem_cons_of_mem x (List.mem_cons_of_mem y later)

theorem least_keeps : Keeps n least := by
  intro v args counted _
  refine .after fun _ => (listItems_counted counted).bind fun items all => ?_
  cases items with
  | nil => exact .ok .undefined
  | cons x xs =>
      refine .ok (all _ (foldl_mem (fun m v => ?_) x xs))
      split
      · exact .inr rfl
      · exact .inl rfl

theorem greatest_keeps : Keeps n greatest := by
  intro v args counted _
  refine .after fun _ => (listItems_counted counted).bind fun items all => ?_
  cases items with
  | nil => exact .ok .undefined
  | cons x xs =>
      refine .ok (all _ (foldl_mem (fun m v => ?_) x xs))
      split
      · exact .inl rfl
      · exact .inr rfl

theorem choose_counted (invert : Bool) (path : Option String) (args : List Value) {v : Value}
    (counted : v.Counted n) : Gives (Value.Counted n) (choose invert path args v) := by
  have chosen (f : Value → Except Fault Bool) : Gives (Value.Counted n)
      (v.items >>= fun items => items.filterM f >>= fun kept => .ok (.list kept)) :=
    (items_counted counted).bind fun items all =>
      (Gives.filterM all).bind fun _ kept => .ok (.list kept)
  unfold choose
  cases args with
  | nil => exact .after fun passes => chosen _
  | cons name rest =>
      dsimp only
      cases Test.table.lookup name.display with
      | some passes => exact .after fun passes => chosen _
      | none => exact .error _

theorem select_keeps (invert : Bool) : Keeps n (select invert) :=
  fun _ args counted _ => choose_counted invert none args.all counted

theorem selectAttr_keeps (invert : Bool) : Keeps n (selectAttr invert) := by
  intro v args counted _
  exact .after fun path => choose_counted invert (some path) args.all.tail counted

theorem keeps_of_mem_table : ∀ entry ∈ table, Keeps n entry.2 := by
  simp only [table, List.forall_mem_cons]
  exact ⟨safe_keeps, escape_keeps, escape_keeps, ofText_keeps _, ofText_keeps _, ofText_keeps _,
    ofText_keeps _, replace_keeps, length_keeps, length_keeps, dictsort_keeps, pairList_keeps,
    reverse_keeps, trim_keeps, join_keeps, split_keeps, lines_keeps, orDefault_keeps,
    orDefault_keeps, round_keeps, abs_keeps, toInt_keeps, toFloat_keeps, attr_keeps, first_keeps,
    last_keeps, least_keeps, greatest_keeps, sort_keeps, toList_keeps, toText_keeps, toBool_keeps,
    sum_keeps, unique_keeps, select_keeps false, select_keeps true, selectAttr_keeps false,
    selectAttr_keeps true, nofun⟩

theorem mapAttribute_counted (path : Value) {fallback v : Value} (other : fallback.Counted n)
    (counted : v.Counted n) : Gives (Value.Counted n) (mapAttribute path fallback v) := by
  refine (items_counted counted).bind fun items all => ?_
  refine (Gives.mapM fun item member => ?_).bind fun parts kept => .ok (.list kept)
  have here := all item member
  dsimp only
  split
  · exact .ok other
  · next part _ found =>
      split at found
      · exact .ok (getPath_counted here _ part found)
      · exact .ok (getItem_counted here _ part found)
  · split
    · exact .error _
    · exact .ok other

theorem keeps_of_lookup {name : String} {f : Transform} (found : table.lookup name = some f) :
    Keeps n f := by
  obtain ⟨before, after, entries, -⟩ := List.lookup_eq_some_iff.mp found
  refine keeps_of_mem_table (name, f) ?_
  rw [entries]
  exact List.mem_append_right before (List.mem_cons_self ..)

theorem applyWith_counted_of_tail {name : String} {unknown : Fault}
    {named : Option (List (String × Value))} {values : List Value} {v : Value}
    (given : Args.Counted n ⟨values, named⟩) (counted : v.Counted n)
    (tail : ∀ inner unknown first rest item, values = first :: rest → item.Counted n →
      Gives (Value.Counted n) (applyWith inner unknown none rest item)) :
    Gives (Value.Counted n) (applyWith name unknown named values v) := by
  unfold applyWith
  split
  · split
    · refine .after fun _ => ?_
      have fallback : ((Args.named? ⟨values, named⟩ "default").getD .undefined).Counted n :=
        counted_getD fun other found => given.of_named? found
      refine (mapAttribute_counted _ fallback counted).bind fun mapped here => ?_
      exact .after fun _ => .ok here
    · split
      · exact .error _
      · refine .ite ?_ (.error _)
        refine (items_counted counted).bind fun items all => ?_
        refine (Gives.mapM fun item member => ?_).bind fun mapped kept => .ok (.list kept)
        exact tail _ _ _ _ item rfl (all item member)
      · exact .error _
  · split
    · next found => exact keeps_of_lookup found v _ counted given
    · exact .error _

theorem applyWith_counted {name : String} {unknown : Fault}
    {named : Option (List (String × Value))} {values : List Value} {v : Value}
    (given : Args.Counted n ⟨values, named⟩) (counted : v.Counted n) :
    Gives (Value.Counted n) (applyWith name unknown named values v) := by
  -- The induction is on the arguments: `map` hands all but the first to the filter it names.
  induction values generalizing name unknown named v with
  | nil => exact applyWith_counted_of_tail given counted nofun
  | cons first rest ih =>
      refine applyWith_counted_of_tail given counted fun inner unknown _ _ item same here => ?_
      cases same
      exact ih ⟨(List.forall_mem_cons.mp given.values).2, nofun⟩ here

end Filters

end Expr

end Haml
