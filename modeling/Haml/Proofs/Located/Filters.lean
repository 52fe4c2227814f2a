import Haml.Expr.Eval
import Haml.Proofs.Located.Parsing
/-! Operators, functions, tests and filters: where they fail, the fault is their own. -/

namespace Haml

/-- Whether a fault arises from the values that an expression computes with: neither from its form
nor in a partial that it renders. -/
def Fault.Own : Fault → Prop
  | .syntaxError _ | .badEscape | .inPartial _ => False
  | _ => True

open Fault (Own)

namespace Value

variable {a b v key : Value} {op : String}

theorem bounded_own {n : Int} : Fails Own (bounded op a b n) := .ite (.ok _) (.error trivial)

theorem failed_own : Fails Own (failed op a b) := .error trivial

theorem unsupported_own : Fails Own (unsupported op a b) := .error trivial

theorem add_own : Fails Own (add a b) := by
  unfold add
  split
  · exact .ok _
  · split
    · exact bounded_own
    · exact .ok _
    · exact .ok _
    · exact unsupported_own

theorem sub_own : Fails Own (sub a b) := by
  unfold sub
  split
  · exact bounded_own
  · exact .ok _
  · exact unsupported_own

theorem times_own {xs : List Value} {sized : Bool} : Fails Own (mul.times xs sized v) := by
  unfold mul.times
  split
  · exact .ok _
  · exact .error trivial

theorem mul_own : Fails Own (mul a b) := by
  unfold mul
  split
  · split
    · exact .ok _
    · exact .error trivial
  · split
    · exact .ok _
    · exact .error trivial
  · split
    · exact times_own
    · exact times_own
    · split
      · exact bounded_own
      · exact .ok _
      · exact unsupported_own

theorem div_own : Fails Own (div a b) := by
  unfold div
  split
  · exact .ok _
  · exact unsupported_own

theorem floorDiv_own : Fails Own (floorDiv a b) := by
  unfold floorDiv
  split
  · exact .ite failed_own bounded_own
  · exact .ok _
  · exact unsupported_own

theorem mod_own : Fails Own (mod a b) := by
  unfold mod
  split
  · exact .ite failed_own bounded_own
  · exact .ok _
  · exact unsupported_own

theorem pow_own : Fails Own (pow a b) := by
  unfold pow
  split
  · refine .ite failed_own ?_
    split
    · exact .ok _
    · exact failed_own
  · exact .ok _
  · exact unsupported_own

theorem neg_own : Fails Own v.neg := by
  unfold neg
  split
  · exact .ite (.ok _) (.error trivial)
  · exact .ok _
  · exact .error trivial

theorem contains_own : Fails Own (a.contains v) := by
  cases a with
  | null | bool _ | int _ | float _ => exact .error trivial
  | _ => exact .ok _

theorem getItem_own : Fails Own (v.getItem key) := by
  unfold getItem
  split
  · exact .ok _
  · split
    · exact .error trivial
    · exact .ok _

theorem getAttr_own {name : String} : Fails Own (v.getAttr name) := by
  unfold getAttr
  split
  · exact .ok _
  · exact .error trivial
  · exact .ok _

theorem getPath_own {path : String} : Fails Own (v.getPath path) := by
  refine .foldlM (fun v part => ?_) _ _
  split
  · exact getItem_own
  · exact getItem_own

theorem items_own : Fails Own v.items := by
  unfold items
  split
  · exact .ok _
  · exact .error trivial

theorem bound?_own : Fails Own v.bound? := by
  unfold bound?
  split
  · exact .ok _
  · split
    · exact .ite (.ok _) (.error trivial)
    · exact .error trivial

theorem slice_own {start stop step : Value} : Fails Own (v.slice start stop step) := by
  refine bound?_own.bind fun _ => bound?_own.bind fun _ => bound?_own.bind fun _ => ?_
  refine .ite (.error trivial) ?_
  cases v with
  | bool _ | int _ | float _ | map _ | function _ | renderer _ => exact .error trivial
  | _ => exact .ok _

end Value

open Value

theorem BinaryOp.apply_own (op : BinaryOp) {a b : Value} : Fails Own (op.apply a b) := by
  cases op with
  | add => exact add_own
  | sub => exact sub_own
  | mul => exact mul_own
  | div => exact div_own
  | floorDiv => exact floorDiv_own
  | mod => exact mod_own
  | pow => exact pow_own
  | isIn => exact contains_own.map
  | _ => exact .ok _

namespace Expr

namespace Args

variable {a : Args} {values : List Value} {v : Value} {bits i : Nat} {target name : String}

theorem allow_own {names : List String} : Fails Own (a.allow names) := by
  unfold allow
  split
  · exact .error trivial
  · exact .ok _

theorem atMost_own {most : Nat} : Fails Own (atMost most values) := .ite (.error trivial) (.ok _)

theorem required_own : Fails Own (required values i) := by
  unfold required
  split
  · exact .ok _
  · exact .error trivial

theorem text_own : Fails Own (text values i) := required_own.map

theorem toBool_own : Fails Own (toBool v) := by
  unfold toBool
  split
  · exact .ok _
  · exact .error trivial

theorem toWord_own : Fails Own (toWord bits target v) := by
  unfold toWord
  split
  · exact .ite (.ok _) (.error trivial)
  · exact .error trivial

theorem optionalWord_own : Fails Own (optionalWord bits target values i) := by
  unfold optionalWord
  split
  · exact toWord_own.map
  · exact .ok _

theorem flag_own : Fails Own (a.flag name) := by
  unfold flag
  split
  · exact .ite (.ok _) toBool_own
  · exact .ok _

end Args

open Args

namespace Functions

variable {args : Args}

theorem countTo_own {start stop step : Int} : Fails Own (countTo start stop step) :=
  .ite (.error trivial) (.ite (.error trivial) (.ok _))

theorem range_own : Fails Own (range args) := by
  refine required_own.bind fun _ => toWord_own.bind fun _ => ?_
  refine optionalWord_own.bind fun stop => optionalWord_own.bind fun _ => ?_
  refine atMost_own.bind fun _ => ?_
  cases stop with
  | none => exact countTo_own.bind fun _ => .ok _
  | some stop => exact countTo_own.bind fun _ => .ok _

theorem dict_own : Fails Own (dict args) := by
  refine atMost_own.bind fun _ => ?_
  split
  · exact .ok _
  · exact .ok _
  · exact .ok _
  · exact .error trivial

theorem raise_own : Fails Own (raise args) :=
  atMost_own.bind fun _ => text_own.bind fun _ => .error trivial

theorem shout_own : Fails Own (shout args) :=
  atMost_own.bind fun _ => text_own.bind fun _ => .ok _

end Functions

theorem run_own (f : Function) {args : Args} : Fails Own (f.run args) := by
  cases f with
  | range => exact Functions.range_own
  | dict => exact Functions.dict_own
  | raise => exact Functions.raise_own
  | shout => exact Functions.shout_own

namespace Test

def Own (test : Test) : Prop := ∀ v args, Fails Fault.Own (test v args)

theorem simple_own (p : Value → Bool) : Own (simple p) :=
  fun _ _ => atMost_own.bind fun _ => .ok _

theorem against_own (p : Value → Value → Bool) : Own (against p) :=
  fun _ _ => atMost_own.bind fun _ => required_own.bind fun _ => .ok _

theorem againstText_own (p : List Char → List Char → Bool) : Own (againstText p) :=
  fun _ _ => atMost_own.bind fun _ => text_own.bind fun _ => .ok _

theorem isIn_own : Own isIn :=
  fun _ _ => atMost_own.bind fun _ => required_own.bind fun _ => .ok _

theorem own_of_mem_table : ∀ entry ∈ table, Own entry.2 := by
  simp only [table, List.forall_mem_cons, simple_own, against_own, againstText_own, isIn_own,
    true_and]
  exact nofun

theorem own_of_lookup {name : String} {test : Test} (found : table.lookup name = some test) :
    Own test := by
  obtain ⟨before, after, entries, -⟩ := List.lookup_eq_some_iff.mp found
  refine own_of_mem_table (name, test) ?_
  rw [entries]
  exact List.mem_append_right before (List.mem_cons_self ..)

end Test

theorem applyTest_own {name : String} {v : Value} {args : Args} :
    Fails Own (applyTest name v args) := by
  unfold applyTest
  split
  · next found => exact Test.own_of_lookup found v args.all
  · exact .error trivial

namespace Filters

def Own (f : Transform) : Prop := ∀ v args, Fails Fault.Own (f v args)

theorem ofText_own (f : List Char → List Char) : Own (ofText f) :=
  fun _ _ => atMost_own.bind fun _ => .ok _

theorem replace_own : Own replace :=
  fun _ _ => atMost_own.bind fun _ => text_own.bind fun _ => text_own.bind fun _ => .ok _

theorem trim_own : Own trim := fun _ _ => atMost_own.bind fun _ => .ok _

theorem length_own : Own length := by
  intro v args
  refine atMost_own.bind fun _ => ?_
  split
  · exact .ok _
  · exact .error trivial

theorem entries_own {v : Value} : Fails Fault.Own (entries v) := by
  unfold entries
  split
  · exact .ok _
  · exact .error trivial

theorem pairList_own : Own pairList :=
  fun _ _ => atMost_own.bind fun _ => entries_own.bind fun _ => .ok _

theorem dictsort_own : Own dictsort := by
  intro v args
  refine atMost_own.bind fun _ => entries_own.bind fun items => ?_
  have sorted (byValue : Bool) : Fails Fault.Own (do
      let caseSensitive ← args.flag "case_sensitive"
      let reverse ← args.flag "reverse"
      args.allow ["by", "case_sensitive", "reverse"]
      let key := if byValue then Prod.snd else Prod.fst
      return pairs (sortBy key caseSensitive reverse items)) :=
    flag_own.bind fun _ => flag_own.bind fun _ => allow_own.bind fun _ => .ok _
  split
  · exact (Fails.ok true).bind sorted
  · exact (Fails.ok false).bind sorted
  · exact .ite ((Fails.ok false).bind sorted) (.bind (.error trivial) sorted)
  · exact (Fails.ok false).bind sorted

theorem listItems_own {v : Value} : Fails Fault.Own (listItems v) := by
  unfold listItems
  split
  · exact .ok _
  · exact .error trivial

theorem attribute?_own {args : Args} : Fails Fault.Own (attribute? args) := by
  unfold attribute?
  split
  · exact .ok _
  · exact .ite (.ok _) (.error trivial)
  · exact .ok _

theorem sort_own : Own sort :=
  fun _ _ => atMost_own.bind fun _ => listItems_own.bind fun _ => flag_own.bind fun _ =>
    attribute?_own.bind fun _ => flag_own.bind fun _ => allow_own.bind fun _ => .ok _

theorem unique_own : Own unique :=
  fun _ _ => atMost_own.bind fun _ => attribute?_own.bind fun _ => flag_own.bind fun _ =>
    allow_own.bind fun _ => items_own.bind fun _ => .ok _

theorem join_own : Own join := by
  intro v args
  refine atMost_own.bind fun _ => .ite (.ok _) ?_
  split
  · exact .ok _
  · exact .error trivial

theorem first_own : Own first := by
  intro v args
  refine atMost_own.bind fun _ => ?_
  split
  · exact .ok _
  · exact .ok _
  · exact .ok _
  · exact .ok _
  · exact .ok _
  · exact .error trivial

theorem last_own : Own last := by
  intro v args
  refine atMost_own.bind fun _ => ?_
  split
  · exact .ok _
  · exact .ok _
  · exact .ok _
  · exact .error trivial

theorem reverse_own : Own reverse := by
  intro v args
  refine atMost_own.bind fun _ => ?_
  split
  · exact .ok _
  · exact .ok _
  · exact .ok _
  · split
    · exact .ok _
    · exact .error trivial

theorem pick_own (v other : Value) (args : Args) (lax : Bool) : Fails Fault.Own (do
    let _ ← Args.atMost 2 args.all
    match v with
    | .undefined => return other
    | v => return if lax && !v.isTrue then other else v) := by
  refine atMost_own.bind fun _ => ?_
  split
  · exact .ok _
  · exact .ok _

theorem orDefault_own : Own orDefault := by
  intro v args
  unfold orDefault
  simp only
  split
  · exact toBool_own.bind (pick_own v _ args)
  · exact (Fails.ok false).bind (pick_own v _ args)

theorem abs_own : Own abs := by
  intro v args
  refine atMost_own.bind fun _ => ?_
  split
  · exact .ok _
  · exact .ok _
  · exact .error trivial

theorem toInt_own : Own toInt := by
  intro v args
  refine atMost_own.bind fun _ => ?_
  split
  · exact .ok _
  · exact .ok _
  · exact .ok _
  · exact .ok _
  · exact .ok _
  · split
    · exact .ok _
    · split
      · exact .ok _
      · exact .error trivial
  · exact .error trivial

theorem toFloat_own : Own toFloat := by
  intro v args
  refine atMost_own.bind fun _ => ?_
  split
  · exact .ok _
  · exact .ok _
  · split
    · exact .ok _
    · exact .error trivial
  · split
    · exact .ok _
    · exact .error trivial

theorem toText_own : Own toText := by
  intro v args
  refine atMost_own.bind fun _ => ?_
  split
  · exact .ok _
  · exact .ok _

theorem toBool_own : Own toBool := fun _ _ => atMost_own.bind fun _ => .ok _

theorem round_own : Own round := by
  intro v args
  refine optionalWord_own.bind fun _ => atMost_own.bind fun _ => ?_
  split
  · exact .ok _
  · exact .ok _
  · exact .error trivial

theorem split_own : Own split :=
  fun _ _ => optionalWord_own.bind fun _ => atMost_own.bind fun _ => .ok _

theorem escape_own : Own escape := by
  intro v args
  refine atMost_own.bind fun _ => ?_
  split
  · exact .ok _
  · split
    · exact .ok _
    · exact .ok _
    · exact .ok _
    · exact .ok _
    · exact .ok _

theorem safe_own : Own safe := fun _ _ => atMost_own.bind fun _ => .ok _

theorem toList_own : Own toList :=
  fun _ _ => atMost_own.bind fun _ => listItems_own.bind fun _ => .ok _

theorem sum_own : Own sum := by
  intro v args
  refine atMost_own.bind fun _ => items_own.bind fun _ => .foldlM (fun total v => ?_) _ _
  split
  · exact .ok _
  · exact .ite add_own (.error trivial)

theorem least_own : Own least := by
  intro v args
  refine atMost_own.bind fun _ => listItems_own.bind fun _ => ?_
  split
  · exact .ok _
  · exact .ok _

theorem greatest_own : Own greatest := by
  intro v args
  refine atMost_own.bind fun _ => listItems_own.bind fun _ => ?_
  split
  · exact .ok _
  · exact .ok _

theorem lines_own : Own lines := fun _ _ => atMost_own.bind fun _ => .ok _

theorem attr_own : Own attr :=
  fun _ _ => atMost_own.bind fun _ => required_own.bind fun _ => getItem_own

theorem kept_own (invert : Bool) (path : Option String) (v : Value)
    (passes : Value → Except Fault Bool) (own : ∀ v, Fails Fault.Own (passes v)) :
    Fails Fault.Own (do
      let kept ← (← v.items).filterM fun item => do
        let subject ← match path with
          | some path => item.getPath path
          | Option.none => pure item
        return (← passes subject) != invert
      return Value.list kept) := by
  refine items_own.bind fun _ => (Fails.filterM (fun item => ?_) _).bind fun _ => .ok _
  cases path with
  | none => exact (Fails.ok item).bind fun _ => (own _).bind fun _ => .ok _
  | some path => exact getPath_own.bind fun _ => (own _).bind fun _ => .ok _

theorem choose_own {invert : Bool} {path : Option String} {args : List Value} {v : Value} :
    Fails Fault.Own (choose invert path args v) := by
  unfold choose
  cases args with
  | nil => exact kept_own invert path v _ fun v => .ok _
  | cons name rest =>
      dsimp only
      cases found : Test.table.lookup name.display with
      | some test => exact kept_own invert path v _ fun v => Test.own_of_lookup found v rest
      | none => exact .error trivial

theorem select_own (invert : Bool) : Own (select invert) := fun _ _ => choose_own

theorem selectAttr_own (invert : Bool) : Own (selectAttr invert) :=
  fun _ _ => text_own.bind fun _ => choose_own

theorem own_of_mem_table : ∀ entry ∈ table, Own entry.2 := by
  simp only [table, List.forall_mem_cons]
  exact ⟨safe_own, escape_own, escape_own, ofText_own _, ofText_own _, ofText_own _, ofText_own _,
    replace_own, length_own, length_own, dictsort_own, pairList_own, reverse_own, trim_own, join_own,
    split_own, lines_own, orDefault_own, orDefault_own, round_own, abs_own, toInt_own, toFloat_own,
    attr_own, first_own, last_own, least_own, greatest_own, sort_own, toList_own, toText_own,
    toBool_own, sum_own, unique_own, select_own false, select_own true, selectAttr_own false,
    selectAttr_own true, nofun⟩

theorem own_of_lookup {name : String} {f : Transform} (found : table.lookup name = some f) :
    Own f := by
  obtain ⟨before, after, entries, -⟩ := List.lookup_eq_some_iff.mp found
  refine own_of_mem_table (name, f) ?_
  rw [entries]
  exact List.mem_append_right before (List.mem_cons_self ..)

theorem part_own (path item : Value) : Fails Fault.Own (match path with
    | .text path _ => item.getPath path
    | key => item.getItem key) := by
  split
  · exact getPath_own
  · exact getItem_own

theorem mapAttribute_own {path fallback v : Value} :
    Fails Fault.Own (mapAttribute path fallback v) := by
  refine items_own.bind fun _ => (Fails.mapM (fun item => ?_) _).bind fun _ => .ok _
  dsimp only
  split
  · exact .ok _
  · exact .ok _
  · next fault failed =>
      split
      · exact .error (part_own path item fault failed)
      · exact .ok _

theorem applyWith_own_of_tail {name : String} {unknown : Fault} (own : unknown.Own)
    {named : Option (List (String × Value))} {values : List Value} {v : Value}
    (tail : ∀ inner first rest item, values = first :: rest →
      Fails Fault.Own (applyWith inner (.unknownFilter Option.none) Option.none rest item)) :
    Fails Fault.Own (applyWith name unknown named values v) := by
  unfold applyWith
  split
  · split
    · exact atMost_own.bind fun _ => mapAttribute_own.bind fun _ => allow_own.bind fun _ => .ok _
    · split
      · exact .error trivial
      · refine .ite ?_ (.error trivial)
        refine items_own.bind fun _ => (Fails.mapM (fun item => ?_) _).bind fun _ => .ok _
        exact tail _ _ _ item rfl
      · exact .error trivial
  · split
    · next found => exact own_of_lookup found v _
    · exact .error own

theorem unknownFilter_own (name : Option String) : (Fault.unknownFilter name).Own := trivial

theorem applyWith_own {name : String} {unknown : Fault} (own : unknown.Own)
    {named : Option (List (String × Value))} {values : List Value} {v : Value} :
    Fails Fault.Own (applyWith name unknown named values v) := by
  -- The induction is on the arguments: `map` hands all but the first to the filter it names.
  induction values generalizing name unknown named v with
  | nil => exact applyWith_own_of_tail own nofun
  | cons first rest ih =>
      refine applyWith_own_of_tail own fun inner _ _ item same => ?_
      cases same
      exact ih (unknownFilter_own none)

end Filters

theorem applyFilter_own {name : String} {v : Value} {args : Args} :
    Fails Own (applyFilter name v args) :=
  Filters.applyWith_own (Filters.unknownFilter_own (some name))

end Expr

end Haml
