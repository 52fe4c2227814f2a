import Haml.Proofs.Deepened.Functions
/-! Filters of deepened values: they see nothing of how much callables have counted, and hand the
callables on as they are. -/

namespace Haml

open Value

variable {k : Nat}

namespace Expr

namespace Filters

/-- Whether a filter gives deepened results of deepened values, the same otherwise. -/
def Uniform (k : Nat) (f : Transform) : Prop :=
  ∀ v args, f (v.deepen k) (args.deepen k) = Value.deepen k <$> f v args

/-! Filters that give texts and numbers. -/

theorem ofText_uniform (f : List Char → List Char) : Uniform k (ofText f) := by
  intro v args
  unfold ofText
  rw [Args.all_deepen, display_deepen]
  exact bind_natural (Args.atMost_deepen 0 args.all) fun _ => rfl

theorem replace_uniform : Uniform k replace := by
  intro v args
  unfold replace
  rw [Args.all_deepen, display_deepen]
  apply bind_natural (Args.atMost_deepen 2 args.all)
  intro values
  rw [Args.text_deepen, Args.text_deepen]
  apply bind_same
  intro old
  exact bind_same _ fun new => rfl

theorem trim_uniform : Uniform k trim := by
  intro v args
  unfold trim
  rw [Args.all_deepen, display_deepen]
  apply bind_natural (Args.atMost_deepen 1 args.all)
  intro values
  rw [Args.optionalText_deepen]
  rfl

theorem length_uniform : Uniform k length := by
  intro v args
  unfold length
  rw [Args.all_deepen, size?_deepen, kind_deepen]
  apply bind_natural (Args.atMost_deepen 0 args.all)
  intro _
  cases v.size? with
  | none => rfl
  | some n => rfl

theorem join_uniform : Uniform k join := by
  intro v args
  unfold join
  rw [Args.all_deepen, isAbsent_deepen, kind_deepen, items?_deepen]
  apply bind_natural (Args.atMost_deepen 1 args.all)
  intro values
  dsimp only
  rw [Args.optionalText_deepen]
  cases v.isAbsent with
  | true => rfl
  | false =>
      cases v.items? with
      | none => rfl
      | some items => simp [Function.comp_def]

theorem split_uniform : Uniform k split := by
  intro v args
  unfold split
  rw [Args.all_deepen, Args.optionalWord_deepen, display_deepen]
  apply bind_same
  intro most
  apply bind_natural (Args.atMost_deepen 2 args.all)
  intro values
  rw [Args.optionalText_deepen]
  refine congrArg Except.ok ?_
  rw [deepen_iter, List.map_map]
  rfl

theorem lines_uniform : Uniform k lines := by
  intro v args
  unfold lines
  rw [Args.all_deepen, display_deepen]
  apply bind_natural (Args.atMost_deepen 0 args.all)
  intro _
  refine congrArg Except.ok ?_
  rw [deepen_list, List.map_map]
  rfl

theorem round_uniform : Uniform k round := by
  intro v args
  unfold round
  rw [Args.all_deepen, Args.optionalWord_deepen]
  apply bind_same
  intro places
  apply bind_natural (Args.atMost_deepen 1 args.all)
  intro _
  cases v <;> rfl

theorem abs_uniform : Uniform k abs := by
  intro v args
  unfold abs
  rw [Args.all_deepen]
  apply bind_natural (Args.atMost_deepen 0 args.all)
  intro _
  cases v <;> rfl

theorem toInt_uniform : Uniform k toInt := by
  intro v args
  unfold toInt
  rw [Args.all_deepen]
  apply bind_natural (Args.atMost_deepen 0 args.all)
  intro _
  cases v with
  | text s safe =>
      dsimp only [deepen_text]
      cases readInt? s.toList with
      | some n => rfl
      | none => cases Decimal.read s.toList <;> rfl
  | _ => rfl

theorem toFloat_uniform : Uniform k toFloat := by
  intro v args
  unfold toFloat
  rw [Args.all_deepen]
  apply bind_natural (Args.atMost_deepen 0 args.all)
  intro _
  cases v with
  | text s safe =>
      dsimp only [deepen_text]
      cases Decimal.read s.toList <;> rfl
  | bool | int | float => rfl
  | _ => rfl

theorem toText_uniform : Uniform k toText := by
  intro v args
  unfold toText
  rw [Args.all_deepen]
  apply bind_natural (Args.atMost_deepen 0 args.all)
  intro _
  cases v with
  | text s safe => rfl
  | _ =>
      exact congrArg (fun s : String => (Except.ok (ofString s) : Except Fault Value))
        (display_deepen (k := k) _)

theorem toBool_uniform : Uniform k toBool := by
  intro v args
  unfold toBool
  rw [Args.all_deepen, isTrue_deepen]
  exact bind_natural (Args.atMost_deepen 0 args.all) fun _ => rfl

theorem escape_uniform : Uniform k escape := by
  intro v args
  unfold escape
  rw [Args.all_deepen]
  apply bind_natural (Args.atMost_deepen 0 args.all)
  intro _
  cases v with
  | text s safe => cases safe <;> rfl
  | undefined | null | bool | int | float => rfl
  | _ =>
      exact congrArg (fun s : String =>
        (Except.ok (.text (String.ofList (s.toList.flatMap escapeChar)) true) : Except Fault Value))
        (display_deepen (k := k) _)

theorem safe_uniform : Uniform k safe := by
  intro v args
  unfold safe
  rw [Args.all_deepen, display_deepen]
  exact bind_natural (Args.atMost_deepen 0 args.all) fun _ => rfl

/-! Filters that give parts of values. -/

theorem entries_deepen (v : Value) :
    entries (v.deepen k) = List.map (deepenEntry k) <$> entries v := by
  cases v with
  | map entries =>
      rw [deepen_map]
      rfl
  | _ => rfl

theorem pairs_deepen (entries : List (Value × Value)) :
    pairs (entries.map (deepenEntry k)) = (pairs entries).deepen k := by
  rw [pairs, pairs, deepen_list, List.map_map, List.map_map]
  refine congrArg Value.list (List.map_congr_left fun entry _ => ?_)
  exact (deepen_list [entry.1, entry.2]).symm

theorem pairList_uniform : Uniform k pairList := by
  intro v args
  unfold pairList
  rw [Args.all_deepen]
  apply bind_natural (Args.atMost_deepen 0 args.all)
  intro _
  apply bind_natural (entries_deepen v)
  intro entries
  exact congrArg Except.ok (pairs_deepen entries)

theorem compareKeys_deepen (caseSensitive : Bool) (a b : Value) :
    compareKeys caseSensitive (a.deepen k) (b.deepen k) = compareKeys caseSensitive a b := by
  cases a with
  | text s safe =>
      cases b with
      | text t other => rfl
      | _ =>
          rw [deepen_text, compareKeys, compareKeys, ← deepen_text (k := k) s safe, compare_deepen]
            <;> simp
  | _ => exact compare_deepen (k := k) _ b

theorem sortBy_map {α : Type} {f : α → α} (key : α → Value)
    (keys : ∀ x, key (f x) = (key x).deepen k) (caseSensitive reverse : Bool) (xs : List α) :
    sortBy key caseSensitive reverse (xs.map f) = (sortBy key caseSensitive reverse xs).map f := by
  have sorted : (xs.map f).mergeSort (fun a b => compareKeys caseSensitive (key a) (key b) != .gt) =
      (xs.mergeSort fun a b => compareKeys caseSensitive (key a) (key b) != .gt).map f := by
    symm
    apply List.map_mergeSort
    intro a _ b _
    rw [keys, keys, compareKeys_deepen]
  unfold sortBy
  rw [sorted]
  cases reverse with
  | true => exact List.map_reverse.symm
  | false => rfl

theorem listItems_deepen (v : Value) :
    listItems (v.deepen k) = List.map (Value.deepen k) <$> listItems v := by
  unfold listItems
  rw [items?_deepen]
  cases v.items? with
  | none => rfl
  | some items => rfl

theorem attribute?_deepen (args : Args) : attribute? (args.deepen k) = attribute? args := by
  unfold attribute?
  rw [Args.named?_deepen]
  cases args.named? "attribute" with
  | none => rfl
  | some v => cases v <;> rfl

theorem pathOr_deepen (v : Value) (path : String) :
    pathOr (v.deepen k) path = (pathOr v path).deepen k := by
  rw [pathOr, pathOr, getPath_deepen]
  cases v.getPath path with
  | error fault => rfl
  | ok part => rfl

theorem keyOf_deepen (path : Option String) (v : Value) :
    keyOf path (v.deepen k) = (keyOf path v).deepen k := by
  cases path with
  | none => rfl
  | some path => exact pathOr_deepen v path

theorem sort_uniform : Uniform k sort := by
  intro v args
  unfold sort
  rw [Args.flag_deepen, Args.flag_deepen, Args.allow_deepen, attribute?_deepen]
  apply bind_natural (Args.atMost_deepen 0 args.values)
  intro _
  apply bind_natural (listItems_deepen v)
  intro items
  apply bind_same
  intro caseSensitive
  apply bind_same
  intro path
  apply bind_same
  intro reverse
  apply bind_same
  intro _
  refine congrArg Except.ok ?_
  rw [sortBy_map (keyOf path) (keyOf_deepen path), deepen_list]

theorem dictsort_uniform : Uniform k dictsort := by
  intro v args
  unfold dictsort
  rw [Args.flag_deepen, Args.flag_deepen, Args.allow_deepen, Args.named?_deepen]
  apply bind_natural (Args.atMost_deepen 0 args.values)
  intro _
  apply bind_natural (entries_deepen v)
  intro items
  have sorted (byValue caseSensitive reverse : Bool) :
      pairs (sortBy (if byValue then Prod.snd else Prod.fst) caseSensitive reverse
        (items.map (deepenEntry k))) =
      (pairs (sortBy (if byValue then Prod.snd else Prod.fst) caseSensitive reverse items)).deepen
        k := by
    rw [← pairs_deepen]
    cases byValue with
    | true =>
        exact congrArg pairs (sortBy_map Prod.snd (fun entry => rfl) caseSensitive reverse items)
    | false =>
        exact congrArg pairs (sortBy_map Prod.fst (fun entry => rfl) caseSensitive reverse items)
  have finish (byValue : Bool) : (do
      let caseSensitive ← args.flag "case_sensitive"
      let reverse ← args.flag "reverse"
      args.allow ["by", "case_sensitive", "reverse"]
      return pairs (sortBy (if byValue then Prod.snd else Prod.fst) caseSensitive reverse
        (items.map (deepenEntry k)))) = Value.deepen k <$> (do
      let caseSensitive ← args.flag "case_sensitive"
      let reverse ← args.flag "reverse"
      args.allow ["by", "case_sensitive", "reverse"]
      return pairs (sortBy (if byValue then Prod.snd else Prod.fst) caseSensitive reverse
        items)) := by
    apply bind_same
    intro caseSensitive
    apply bind_same
    intro reverse
    apply bind_same
    intro _
    exact congrArg Except.ok (sorted byValue caseSensitive reverse)
  -- Only two texts say what to sort by; what else is given is refused, and then its text is shown.
  cases args.named? "by" with
  | none => exact finish false
  | some order =>
      cases order with
      | undefined | null => exact finish false
      | text s safe =>
          by_cases value : s = "value"
          · subst value
            exact finish true
          · by_cases key : s = "key"
            · subst key
              exact finish false
            · simp [value, key, isAbsent]
              rfl
      | _ =>
          exact congrArg (fun shown : String => (Except.error
            (.refused ("invalid value '" ++ shown ++ "' for 'by' parameter")) : Except Fault Value))
            (display_deepen (k := k) _)

theorem distinct_deepen {key key' : Value → Value}
    (keys : ∀ v : Value, key' (v.deepen k) = (key v).deepen k) (seen items : List Value) :
    distinct key' (seen.map (Value.deepen k)) (items.map (Value.deepen k)) =
      (distinct key seen items).map (Value.deepen k) := by
  induction items generalizing seen with
  | nil => rfl
  | cons v vs ih =>
      have known : (seen.map (Value.deepen k)).any (fun w => w.compare (key' (v.deepen k)) == .eq) =
          seen.any fun w => w.compare (key v) == .eq := by
        rw [List.any_map]
        simp only [Function.comp_def, keys, compare_deepen]
      rw [List.map_cons, distinct, distinct, known]
      split
      · exact ih seen
      · rw [List.map_cons, keys]
        exact congrArg _ (ih (key v :: seen))

theorem unique_uniform : Uniform k unique := by
  intro v args
  unfold unique
  rw [Args.flag_deepen, Args.allow_deepen, attribute?_deepen]
  apply bind_natural (Args.atMost_deepen 0 args.values)
  intro _
  apply bind_same
  intro path
  apply bind_same
  intro caseSensitive
  apply bind_same
  intro _
  apply bind_natural (items_deepen v)
  intro items
  refine congrArg Except.ok ?_
  rw [deepen_list]
  refine congrArg Value.list (distinct_deepen (fun v => ?_) [] items)
  rw [keyOf_deepen]
  cases keyOf path v with
  | text s safe => cases caseSensitive <;> rfl
  | _ => simp

theorem first_uniform : Uniform k first := by
  intro v args
  unfold first
  rw [Args.all_deepen]
  apply bind_natural (Args.atMost_deepen 0 args.all)
  intro _
  cases v with
  | text s safe =>
      dsimp only [deepen_text]
      cases s.toList <;> rfl
  | list items => cases items <;> rfl
  | iter items sized => cases items <;> rfl
  | map entries => cases entries <;> rfl
  | _ => rfl

theorem last_uniform : Uniform k last := by
  intro v args
  unfold last
  rw [Args.all_deepen]
  apply bind_natural (Args.atMost_deepen 0 args.all)
  intro _
  have deepened (items : List Value) : ((items.map (Value.deepen k)).getLast?).getD .undefined =
      (items.getLast?.getD .undefined).deepen k := by
    rw [List.getLast?_map]
    cases items.getLast? with
    | none => rfl
    | some item => rfl
  cases v with
  | text s safe =>
      dsimp only [deepen_text]
      cases s.toList.getLast? with
      | none => rfl
      | some c => rfl
  | list items =>
      rw [deepen_list]
      exact congrArg Except.ok (deepened items)
  | iter items sized =>
      rw [deepen_iter]
      exact congrArg Except.ok (deepened items)
  | _ => rfl

theorem reverse_uniform : Uniform k reverse := by
  intro v args
  unfold reverse
  rw [Args.all_deepen]
  apply bind_natural (Args.atMost_deepen 0 args.all)
  intro _
  cases v with
  | list items => simp [items?]
  | iter items sized => simp [items?]
  | map entries => simp [items?, deepenEntry, Function.comp_def]
  | _ => rfl

theorem pick_deepen (other v : Value) (args : Args) (lax : Bool) : (do
    let _ ← Args.atMost 2 (args.all.map (Value.deepen k))
    match v.deepen k with
    | .undefined => return other.deepen k
    | v => return if lax && !v.isTrue then other.deepen k else v) = Value.deepen k <$> (do
    let _ ← Args.atMost 2 args.all
    match v with
    | .undefined => return other
    | v => return if lax && !v.isTrue then other else v) := by
  have pick : (if lax && !(v.deepen k).isTrue then other.deepen k else v.deepen k) =
      (if lax && !v.isTrue then other else v).deepen k := by
    rw [isTrue_deepen]
    split
    · rfl
    · rfl
  apply bind_natural (Args.atMost_deepen 2 args.all)
  intro _
  cases v with
  | undefined => rfl
  | _ => exact congrArg Except.ok pick

theorem orDefault_uniform : Uniform k orDefault := by
  intro v args
  unfold orDefault
  rw [Args.all_deepen, Args.optional_deepen, Args.optional_deepen]
  have other : ((Args.optional args.all 0).map (Value.deepen k)).getD (.ofString "") =
      ((Args.optional args.all 0).getD (.ofString "")).deepen k := by
    cases Args.optional args.all 0 with
    | none => rfl
    | some other => rfl
  rw [other]
  generalize (Args.optional args.all 0).getD (.ofString "") = other
  cases Args.optional args.all 1 with
  | none => exact pick_deepen other v args false
  | some given =>
      dsimp only [Option.map_some]
      rw [Args.toBool_deepen]
      exact bind_same _ (pick_deepen other v args)

theorem attr_uniform : Uniform k attr := by
  intro v args
  unfold attr
  rw [Args.all_deepen]
  apply bind_natural (Args.atMost_deepen 1 args.all)
  intro values
  apply bind_natural (Args.required_deepen values 0)
  intro key
  exact getItem_deepen v key

theorem toList_uniform : Uniform k toList := by
  intro v args
  unfold toList
  rw [Args.all_deepen]
  apply bind_natural (Args.atMost_deepen 0 args.all)
  intro _
  apply bind_natural (listItems_deepen v)
  intro items
  exact congrArg Except.ok (deepen_list items).symm

theorem sum_uniform : Uniform k sum := by
  intro v args
  unfold sum
  rw [Args.all_deepen]
  apply bind_natural (Args.atMost_deepen 0 args.all)
  intro _
  apply bind_natural (items_deepen v)
  intro items
  rw [← deepen_int (k := k) 0]
  refine foldlM_natural (fun total item => ?_) items (Value.int 0)
  cases item with
  | undefined => rfl
  | int n => exact add_deepen total (.int n)
  | float x => exact add_deepen total (.float x)
  | _ => rfl

theorem foldl_deepen {f : Value → Value → Value}
    (step : ∀ m v : Value, f (m.deepen k) (v.deepen k) = (f m v).deepen k) (x : Value)
    (xs : List Value) : (xs.map (Value.deepen k)).foldl f (x.deepen k) = (xs.foldl f x).deepen k := by
  induction xs generalizing x with
  | nil => rfl
  | cons y ys ih => rw [List.map_cons, List.foldl_cons, step, ih, List.foldl_cons]

theorem least_uniform : Uniform k least := by
  intro v args
  unfold least
  rw [Args.all_deepen]
  apply bind_natural (Args.atMost_deepen 0 args.all)
  intro _
  apply bind_natural (listItems_deepen v)
  intro items
  cases items with
  | nil => rfl
  | cons x xs =>
      refine congrArg Except.ok (foldl_deepen (fun m v => ?_) x xs)
      rw [compare_deepen]
      split
      · rfl
      · rfl

theorem greatest_uniform : Uniform k greatest := by
  intro v args
  unfold greatest
  rw [Args.all_deepen]
  apply bind_natural (Args.atMost_deepen 0 args.all)
  intro _
  apply bind_natural (listItems_deepen v)
  intro items
  cases items with
  | nil => rfl
  | cons x xs =>
      refine congrArg Except.ok (foldl_deepen (fun m v => ?_) x xs)
      rw [compare_deepen]
      split
      · rfl
      · rfl

theorem kept_deepen (invert : Bool) (path : Option String) (v : Value)
    {p p' : Value → Except Fault Bool} (same : ∀ item : Value, p' (item.deepen k) = p item) : (do
    let kept ← (← (v.deepen k).items).filterM fun (item : Value) => do
      let subject ← match path with
        | some path => item.getPath path
        | none => pure item
      return (← p' subject) != invert
    return .list kept) = Value.deepen k <$> (do
    let kept ← (← v.items).filterM fun (item : Value) => do
      let subject ← match path with
        | some path => item.getPath path
        | none => pure item
      return (← p subject) != invert
    return .list kept) := by
  apply bind_natural (items_deepen v)
  intro items
  refine bind_natural (filterM_natural (fun item => ?_) items) fun kept => ?_
  · cases path with
    | none => exact congrArg (fun passed => (· != invert) <$> passed) (same item)
    | some path =>
        dsimp only
        rw [getPath_deepen]
        cases item.getPath path with
        | error fault => rfl
        | ok part => exact congrArg (fun passed => (· != invert) <$> passed) (same part)
  · exact congrArg Except.ok (deepen_list kept).symm

theorem choose_deepen (invert : Bool) (path : Option String) (args : List Value) (v : Value) :
    choose invert path (args.map (Value.deepen k)) (v.deepen k) =
      Value.deepen k <$> choose invert path args v := by
  unfold choose
  cases args with
  | nil => exact kept_deepen invert path v fun item => congrArg Except.ok (isTrue_deepen item)
  | cons name rest =>
      rw [List.map_cons]
      dsimp only
      rw [display_deepen]
      cases found : Test.table.lookup name.display with
      | none => rfl
      | some passes =>
          exact kept_deepen invert path v fun item => Test.uniform_of_lookup found item rest

theorem select_uniform (invert : Bool) : Uniform k (select invert) := by
  intro v args
  unfold select
  rw [Args.all_deepen]
  exact choose_deepen invert none args.all v

theorem selectAttr_uniform (invert : Bool) : Uniform k (selectAttr invert) := by
  intro v args
  unfold selectAttr
  rw [Args.all_deepen, Args.text_deepen, ← List.map_tail]
  apply bind_same
  intro path
  exact choose_deepen invert (some path) args.all.tail v

theorem uniform_of_mem_table : ∀ entry ∈ table, Uniform k entry.2 := by
  simp only [table, List.forall_mem_cons]
  exact ⟨safe_uniform, escape_uniform, escape_uniform, ofText_uniform _, ofText_uniform _,
    ofText_uniform _, ofText_uniform _, replace_uniform, length_uniform, length_uniform,
    dictsort_uniform, pairList_uniform, reverse_uniform, trim_uniform, join_uniform, split_uniform,
    lines_uniform, orDefault_uniform, orDefault_uniform, round_uniform, abs_uniform, toInt_uniform,
    toFloat_uniform, attr_uniform, first_uniform, last_uniform, least_uniform, greatest_uniform,
    sort_uniform, toList_uniform, toText_uniform, toBool_uniform, sum_uniform, unique_uniform,
    select_uniform false, select_uniform true, selectAttr_uniform false, selectAttr_uniform true,
    nofun⟩

theorem uniform_of_lookup {name : String} {f : Transform} (found : table.lookup name = some f) :
    Uniform k f := by
  obtain ⟨before, after, entries, -⟩ := List.lookup_eq_some_iff.mp found
  refine uniform_of_mem_table (name, f) ?_
  rw [entries]
  exact List.mem_append_right before (List.mem_cons_self ..)

def partOr (path fallback item : Value) : Except Fault Value :=
  let found := match path with
    | .text path _ => item.getPath path
    | key => item.getItem key
  match found with
  | .ok .undefined => .ok fallback
  | .ok part => .ok part
  | .error fault =>
      match fallback with
      | .undefined => .error fault
      | fallback => .ok fallback

theorem partOr_deepen (path fallback item : Value) :
    partOr (path.deepen k) (fallback.deepen k) (item.deepen k) =
      Value.deepen k <$> partOr path fallback item := by
  have found : (match path.deepen k with
      | .text path _ => (item.deepen k).getPath path
      | key => (item.deepen k).getItem key) = Value.deepen k <$> (match path with
      | .text path _ => item.getPath path
      | key => item.getItem key) := by
    cases path with
    | text s safe => exact getPath_deepen item s
    | _ => exact getItem_deepen item _
  unfold partOr
  dsimp only
  rw [found]
  generalize (match path with
    | .text path _ => item.getPath path
    | key => item.getItem key) = found
  cases found with
  | ok part => cases part <;> rfl
  | error fault => cases fallback <;> rfl

theorem mapAttribute_deepen (path fallback v : Value) :
    mapAttribute (path.deepen k) (fallback.deepen k) (v.deepen k) =
      Value.deepen k <$> mapAttribute path fallback v := by
  change (v.deepen k).items >>= _ = Value.deepen k <$> (v.items >>= fun items =>
    items.mapM (partOr path fallback) >>= fun parts => .ok (.list parts))
  apply bind_natural (items_deepen v)
  intro items
  apply bind_natural (mapM_natural (partOr_deepen path fallback) items)
  intro parts
  exact congrArg Except.ok (deepen_list parts).symm

theorem applyWith_deepen_of_tail {name : String} {unknown : Fault}
    {named : Option (List (String × Value))} {values : List Value} {v : Value}
    (tail : ∀ inner unknown first rest (item : Value), values = first :: rest →
      applyWith inner unknown none (rest.map (Value.deepen k)) (item.deepen k) =
        Value.deepen k <$> applyWith inner unknown none rest item) :
    applyWith name unknown (named.map (List.map (deepenBinding k))) (values.map (Value.deepen k))
        (v.deepen k) = Value.deepen k <$> applyWith name unknown named values v := by
  have given (name : String) :
      Args.named? ⟨values.map (Value.deepen k), named.map (List.map (deepenBinding k))⟩ name =
        (Args.named? ⟨values, named⟩ name).map (Value.deepen k) :=
    Args.named?_deepen ⟨values, named⟩ name
  unfold applyWith
  rw [given, given]
  by_cases map : name = "map"
  · rw [if_pos map, if_pos map]
    cases Args.named? ⟨values, named⟩ "attribute" with
    | some path =>
        have fallback : ((Args.named? ⟨values, named⟩ "default").map (Value.deepen k)).getD .undefined =
            ((Args.named? ⟨values, named⟩ "default").getD .undefined).deepen k := by
          cases Args.named? ⟨values, named⟩ "default" with
          | none => rfl
          | some other => rfl
        apply bind_natural (Args.atMost_deepen 0 values)
        intro _
        rw [fallback]
        apply bind_natural (mapAttribute_deepen path _ v)
        intro mapped
        have allowed (names : List String) :
            Args.allow ⟨values.map (Value.deepen k), named.map (List.map (deepenBinding k))⟩ names =
              Args.allow ⟨values, named⟩ names := Args.allow_deepen ⟨values, named⟩ names
        rw [allowed]
        exact bind_same _ fun _ => rfl
    -- Without an attribute, the first argument names the filter for the items.
    | none =>
        cases values with
        | nil => rfl
        | cons first rest =>
            cases first with
            | text inner safe =>
                rw [List.map_cons, deepen_text]
                dsimp only [Option.map_none]
                split
                · apply bind_natural (items_deepen v)
                  intro items
                  apply bind_natural (mapM_natural (fun item => tail inner _ _ rest item rfl) items)
                  intro mapped
                  exact congrArg Except.ok (deepen_list mapped).symm
                · rfl
            | _ => rfl
  · rw [if_neg map, if_neg map]
    cases found : table.lookup name with
    | none => rfl
    | some f => exact uniform_of_lookup found v ⟨values, named⟩

theorem applyWith_deepen {name : String} {unknown : Fault}
    {named : Option (List (String × Value))} {values : List Value} {v : Value} :
    applyWith name unknown (named.map (List.map (deepenBinding k))) (values.map (Value.deepen k))
        (v.deepen k) = Value.deepen k <$> applyWith name unknown named values v := by
  -- The induction is on the arguments: `map` hands all but the first to the filter it names.
  induction values generalizing name unknown named v with
  | nil => exact applyWith_deepen_of_tail nofun
  | cons first rest ih =>
      apply applyWith_deepen_of_tail
      intro inner unknown _ _ item same
      cases same
      exact @ih inner unknown none item

end Filters

theorem applyFilter_deepen (name : String) (v : Value) (args : Args) :
    applyFilter name (v.deepen k) (args.deepen k) = Value.deepen k <$> applyFilter name v args :=
  Filters.applyWith_deepen

end Expr

end Haml
