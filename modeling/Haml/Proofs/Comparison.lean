import Haml.Expr.Eval
/-! Evaluations side by side: one expression in several environments at once. Where the names of the
environments and the operations on values come out alike, so does every expression. -/

namespace Haml

namespace Expr

/-- A way to compare evaluations, one at each index: which values are compared, how they look at an
index, and how evaluations may end where there is no value to compare. -/
structure Comparison (ι : Type) where
  Fit : Value → Prop
  FitArgs : Args → Prop
  seen : ι → Value → Value
  seenArgs : ι → Args → Args
  Fails {α : Type} : (ι → Except Fault α) → Prop
  fails_bind {α β : Type} {x : ι → Except Fault α} (f : ι → α → Except Fault β) :
    Fails x → Fails fun i => x i >>= f i

namespace Comparison

variable {ι α β : Type} {R : Comparison ι} {P : α → Prop} {Q : β → Prop} {g : ι → α → α}
  {h : ι → β → β} {x y : ι → Except Fault α} {a : α}

/-- Computations that come out alike: with one result of which `P` holds, as `g` has it at each index,
or in a way to fail. -/
inductive Alike (R : Comparison ι) (P : α → Prop) (g : ι → α → α) (x : ι → Except Fault α) : Prop
  | ok (a : α) : P a → (∀ i, x i = .ok (g i a)) → R.Alike P g x
  | fails : R.Fails x → R.Alike P g x

theorem Alike.pure (holds : P a) : R.Alike P g fun i => .ok (g i a) := .ok a holds fun _ => rfl

theorem Alike.bind {f : ι → α → Except Fault β} (first : R.Alike P g x)
    (next : ∀ a, P a → R.Alike Q h fun i => f i (g i a)) : R.Alike Q h fun i => x i >>= f i := by
  cases first with
  | ok a holds same =>
      have rest : (fun i => x i >>= f i) = fun i => f i (g i a) := by
        funext i
        rw [same]
        rfl
      rw [rest]
      exact next a holds
  | fails failing => exact .fails (R.fails_bind f failing)

theorem Alike.map {f : α → β} (first : R.Alike P g x)
    (next : ∀ a, P a → Q (f a) ∧ ∀ i, h i (f a) = f (g i a)) :
    R.Alike Q h fun i => f <$> x i := by
  simp only [map_eq_pure_bind]
  refine first.bind fun a holds => ?_
  obtain ⟨result, same⟩ := next a holds
  exact .ok (f a) result fun i => congrArg Except.ok (same i).symm

theorem Alike.ite {c : Prop} [Decidable c] (yes : R.Alike P g x) (no : R.Alike P g y) :
    R.Alike P g fun i => if c then x i else y i := by
  by_cases holds : c
  · simpa only [if_pos holds] using yes
  · simpa only [if_neg holds] using no

abbrev Gives (R : Comparison ι) : (ι → Except Fault Value) → Prop := R.Alike R.Fit R.seen

def Fixed (R : Comparison ι) (v : Value) : Prop := R.Fit v ∧ ∀ i, R.seen i v = v

theorem Fixed.gives {v : Value} (fixed : R.Fixed v) : R.Gives fun _ => .ok v :=
  .ok v fixed.1 fun i => congrArg Except.ok (fixed.2 i).symm

/-- Whether nothing that an expression is made of tells environments apart. -/
structure Closed (R : Comparison ι) (env : ι → Env) : Prop where
  null : R.Fixed .null
  undefined : R.Fixed .undefined
  bool (b : Bool) : R.Fixed (.bool b)
  int (n : Int) : R.Fixed (.int n)
  float (x : Float) : R.Fixed (.float x)
  text (s : String) : R.Fixed (.ofString s)
  list {vs : List Value} : (∀ v ∈ vs, R.Fit v) →
    R.Fit (.list vs) ∧ ∀ i, R.seen i (.list vs) = .list (vs.map (R.seen i))
  ofEntries {entries : List (Value × Value)} :
    (∀ entry ∈ entries, R.Fit entry.1 ∧ R.Fit entry.2) → R.Fit (.ofEntries entries) ∧
      ∀ i, R.seen i (.ofEntries entries) =
        .ofEntries (entries.map fun entry => (R.seen i entry.1, R.seen i entry.2))
  isTrue {v : Value} : R.Fit v → ∀ i, (R.seen i v).isTrue = v.isTrue
  lookup (name : String) : R.Gives fun i => .ok (((env i).lookup? name).getD .undefined)
  neg {v : Value} : R.Fit v → R.Gives fun i => (R.seen i v).neg
  apply (op : BinaryOp) {v w : Value} : R.Fit v → R.Fit w →
    R.Gives fun i => op.apply (R.seen i v) (R.seen i w)
  getAttr (name : String) {v : Value} : R.Fit v → R.Gives fun i => (R.seen i v).getAttr name
  getItem {v key : Value} : R.Fit v → R.Fit key →
    R.Gives fun i => (R.seen i v).getItem (R.seen i key)
  slice {v start stop step : Value} : R.Fit v → R.Fit start → R.Fit stop → R.Fit step →
    R.Gives fun i => (R.seen i v).slice (R.seen i start) (R.seen i stop) (R.seen i step)
  applyFilter (name : String) {v : Value} {args : Args} : R.Fit v → R.FitArgs args →
    R.Gives fun i => applyFilter name (R.seen i v) (R.seenArgs i args)
  applyTest (name : String) {v : Value} {args : Args} : R.Fit v → R.FitArgs args →
    R.Alike (fun _ => True) (fun _ => id) fun i => applyTest name (R.seen i v) (R.seenArgs i args)
  ofGiven {positional named : List (ArgForm × Value)} : (∀ arg ∈ positional, R.Fit arg.2) →
    (∀ arg ∈ named, R.Fit arg.2) → R.Alike R.FitArgs R.seenArgs fun i =>
      Args.ofGiven (positional.map (Prod.map id (R.seen i))) (named.map (Prod.map id (R.seen i)))
  callName (name : String) {args : Args} : R.FitArgs args →
    R.Gives fun i => callName (env i) name (R.seenArgs i args)
  callMethod (name : String) {v : Value} {args : Args} : R.Fit v → R.FitArgs args →
    R.Gives fun i => callMethod (env i) (R.seen i v) name (R.seenArgs i args)
  callValue {v : Value} {args : Args} : R.Fit v → R.FitArgs args →
    R.Gives fun i => callValue (env i) (R.seen i v) (R.seenArgs i args)
  unknownBlock (name : String) : R.Gives fun _ => .error (.unknownBlock name)

end Comparison

variable {ι : Type} {R : Comparison ι} {env : ι → Env}

open Comparison

/-- Evaluation asks nothing of values but what the operations on them do. -/
theorem eval_alike (closed : R.Closed env) (e : Expr) : R.Gives fun i => eval (env i) e := by
  have all := eval.mutual_induct
    (fun e => R.Gives fun i => eval (env i) e)
    (fun args => R.Alike R.FitArgs R.seenArgs fun i => evalArgs (env i) args)
    (fun positional args => R.Alike (fun given => ∀ arg ∈ given, R.Fit arg.2)
      (fun i => List.map (Prod.map id (R.seen i))) fun i => evalGiven (env i) positional args)
    (fun standIn e => R.Fixed standIn → R.Gives fun i => evalOr (env i) standIn e)
    (fun entries => R.Alike (fun entries => ∀ entry ∈ entries, R.Fit entry.1 ∧ R.Fit entry.2)
      (fun i => List.map fun entry => (R.seen i entry.1, R.seen i entry.2))
      fun i => evalEntries (env i) entries)
    (fun es => R.Alike (fun vs => ∀ v ∈ vs, R.Fit v) (fun i => List.map (R.seen i))
      fun i => evalAll (env i) es)
    ?absent ?bool ?int ?float ?text ?var ?list ?map ?not ?neg ?binary ?and ?or ?cond ?attr ?item
    ?slice ?filter ?test ?callVar ?callSelf ?callAttr ?call ?args ?givenNil ?givenHere ?givenElse
    ?orSome ?orNone ?entriesNil ?entriesCons ?allNil ?allCons
  -- The cases stand in the order of the clauses of the evaluators.
  · exact all.1 e
  case absent =>
    simp only [eval]
    exact closed.null.gives
  case bool =>
    intro b
    simp only [eval]
    exact (closed.bool b).gives
  case int =>
    intro n
    simp only [eval]
    exact (closed.int n).gives
  case float =>
    intro x
    simp only [eval]
    exact (closed.float x).gives
  case text =>
    intro s
    simp only [eval]
    exact (closed.text s).gives
  case var =>
    intro name
    simp only [eval]
    exact closed.lookup name
  case list =>
    intro items ih
    simp only [eval]
    exact ih.map fun vs => closed.list
  case map =>
    intro entries ih
    simp only [eval]
    exact ih.map fun entries => closed.ofEntries
  case not =>
    intro e ih
    simp only [eval]
    refine ih.bind fun v fit => ?_
    simp only [closed.isTrue fit]
    exact (closed.bool !v.isTrue).gives
  case neg =>
    intro e ih
    simp only [eval]
    exact ih.bind fun v => closed.neg
  case binary =>
    intro op left right ihl ihr
    simp only [eval]
    exact ihl.bind fun v first => ihr.bind fun w second => closed.apply op first second
  case and =>
    intro left right ihl ihr
    simp only [eval]
    refine ihl.bind fun v fit => ?_
    simp only [closed.isTrue fit]
    exact .ite ihr (.pure fit)
  case or =>
    intro left right ihl ihr
    simp only [eval]
    refine ihl.bind fun v fit => ?_
    simp only [closed.isTrue fit]
    exact .ite (.pure fit) ihr
  case cond =>
    intro condition yes no ihc ihy ihn
    simp only [eval]
    refine ihc.bind fun v fit => ?_
    simp only [closed.isTrue fit]
    exact .ite ihy (ihn closed.undefined)
  case attr =>
    intro e name ih
    simp only [eval]
    exact ih.bind fun v => closed.getAttr name
  case item =>
    intro e key ih ihkey
    simp only [eval]
    exact ih.bind fun v fit => ihkey.bind fun k => closed.getItem fit
  case slice =>
    intro e start stop step ih ihstart ihstop ihstep
    simp only [eval]
    refine ih.bind fun v fit => (ihstart closed.null).bind fun start first => ?_
    refine (ihstop closed.null).bind fun stop last => (ihstep closed.null).bind fun step => ?_
    exact closed.slice fit first last
  case filter =>
    intro name e args ih ihargs
    simp only [eval]
    exact ih.bind fun v fit => ihargs.bind fun args => closed.applyFilter name fit
  case test =>
    intro name e args ih ihargs
    simp only [eval]
    refine ih.bind fun v fit => ihargs.bind fun args given => ?_
    exact (closed.applyTest name fit given).bind fun b _ => (closed.bool b).gives
  case callVar =>
    intro name args ihargs
    simp only [eval]
    exact ihargs.bind fun args => closed.callName name
  case callSelf =>
    intro name args
    simp only [eval]
    exact closed.unknownBlock name
  case callAttr =>
    intro e name args other ih ihargs
    simp only [eval]
    exact ih.bind fun v fit => ihargs.bind fun args => closed.callMethod name fit
  case call =>
    intro callee args var self attr ih ihargs
    simp only [eval]
    exact ih.bind fun v fit => ihargs.bind fun args => closed.callValue fit
  case args =>
    intro args ihpositional ihnamed
    simp only [evalArgs]
    exact ihpositional.bind fun positional values => ihnamed.bind fun named => closed.ofGiven values
  case givenNil =>
    intro positional
    simp only [evalGiven]
    exact .ok [] nofun fun _ => rfl
  case givenHere =>
    intro positional form e rest wanted ih ihrest
    simp only [evalGiven, if_pos wanted]
    refine ih.bind fun v fit => ihrest.bind fun given others => ?_
    exact .ok ((form, v) :: given) (List.forall_mem_cons.mpr ⟨fit, others⟩) fun _ => rfl
  case givenElse =>
    intro positional form e rest unwanted ihrest
    simp only [evalGiven, if_neg unwanted]
    exact ihrest
  case orSome =>
    intro standIn e ih _
    simp only [evalOr]
    exact ih
  case orNone =>
    intro standIn fixed
    simp only [evalOr]
    exact fixed.gives
  case entriesNil =>
    simp only [evalEntries]
    exact .ok [] nofun fun _ => rfl
  case entriesCons =>
    intro k e rest ihkey ih ihrest
    simp only [evalEntries]
    refine ihkey.bind fun key first => ih.bind fun v second => ihrest.bind fun entries others => ?_
    exact .ok ((key, v) :: entries) (List.forall_mem_cons.mpr ⟨⟨first, second⟩, others⟩) fun _ => rfl
  case allNil =>
    simp only [evalAll]
    exact .ok [] nofun fun _ => rfl
  case allCons =>
    intro e es ih ihrest
    simp only [evalAll]
    refine ih.bind fun v fit => ihrest.bind fun vs others => ?_
    exact .ok (v :: vs) (List.forall_mem_cons.mpr ⟨fit, others⟩) fun _ => rfl

end Expr

end Haml
