import Haml.Proofs.Comparison
import Haml.Proofs.Located.Filters
import Haml.Proofs.Nesting
/-! Calls that fail: an evaluation goes on from a call only with the value that it gives. Where the
call fails, so does the evaluation, and with nothing but the fault of the call. -/

namespace Haml

def Calling.Keeps (call other : Calling) : Prop :=
  ∀ r args v, call r args = .ok v → other r args = .ok v

theorem Calling.Keeps.refl (call : Calling) : call.Keeps call := fun _ _ _ given => given

/-- How a computation comes out in which calls are answered by `call`: it has a result, or a failure
of its own, which satisfies `K`, and so it has however the calls that fail are answered; or one of
these is made, and whatever its fault is, the computation fails by that, as `m` says. -/
inductive Settled {δ α : Type} (call : Calling) (K : δ → Prop) (m : Fault → δ)
    (x : Calling → Except δ α) : Prop
  | ok (a : α) : (∀ other, call.Keeps other → x other = .ok a) → Settled call K m x
  | own (e : δ) : K e → (∀ other, call.Keeps other → x other = .error e) → Settled call K m x
  | called (r : Renderer Value) (args : List Value) (fault : Fault) : call r args = .error fault →
      (∀ other fault', call.Keeps other → other r args = .error fault' →
        x other = .error (m fault')) → Settled call K m x

namespace Settled

variable {δ α β : Type} {call : Calling} {K : δ → Prop} {m : Fault → δ} {x : Calling → Except δ α}

theorem of_fails {y : Except δ α} (own : Fails K y) : Settled call K m fun _ => y := by
  cases y with
  | ok a => exact .ok a fun _ _ => rfl
  | error e => exact .own e (own e rfl) fun _ _ => rfl

theorem pure (a : α) : Settled call K m fun _ => .ok a := of_fails (.ok a)

theorem answer {K : Fault → Prop} (r : Renderer Value) (args : List Value) :
    Settled call K id fun other => other r args := by
  cases answered : call r args with
  | ok v => exact .ok v fun other keeps => keeps r args v answered
  | error fault => exact .called r args fault answered fun other fault' _ failed => failed

theorem bind {f : α → Calling → Except δ β} (first : Settled call K m x)
    (next : ∀ a, Settled call K m (f a)) :
    Settled call K m fun other => x other >>= fun a => f a other := by
  cases first with
  | ok a given =>
      cases next a with
      | ok b rest =>
          refine .ok b fun other keeps => ?_
          rw [given other keeps]
          exact rest other keeps
      | own e cause rest =>
          refine .own e cause fun other keeps => ?_
          rw [given other keeps]
          exact rest other keeps
      | called r args fault failed rest =>
          refine .called r args fault failed fun other fault' keeps failed' => ?_
          rw [given other keeps]
          exact rest other fault' keeps failed'
  | own e cause given =>
      refine .own e cause fun other keeps => ?_
      rw [given other keeps]
      rfl
  | called r args fault failed given =>
      refine .called r args fault failed fun other fault' keeps failed' => ?_
      rw [given other fault' keeps failed']
      rfl

theorem map {f : α → β} (first : Settled call K m x) :
    Settled call K m fun other => f <$> x other := by
  simp only [map_eq_pure_bind]
  exact first.bind fun a => pure (f a)

theorem ite {c : Prop} [Decidable c] {y : Calling → Except δ α} (yes : Settled call K m x)
    (no : Settled call K m y) : Settled call K m fun other => if c then x other else y other := by
  by_cases holds : c
  · simpa only [if_pos holds] using yes
  · simpa only [if_neg holds] using no

theorem foldlM {f : β → α → Calling → Except δ β} (each : ∀ b a, Settled call K m (f b a))
    (as : List α) (b : β) :
    Settled call K m fun other => as.foldlM (fun b a => f b a other) b := by
  induction as generalizing b with
  | nil => exact pure b
  | cons a as ih =>
      simp only [List.foldlM_cons]
      exact (each b a).bind ih

theorem mono {L : δ → Prop} (settled : Settled call K m x) (causes : ∀ e, K e → L e) :
    Settled call L m x := by
  cases settled with
  | ok a given => exact .ok a given
  | own e cause given => exact .own e (causes e cause) given
  | called r args fault failed given => exact .called r args fault failed given

theorem mapError {κ : Type} {K' : κ → Prop} {f : δ → κ} (inside : Settled call K m x)
    (causes : ∀ e, K e → K' (f e)) :
    Settled call K' (fun fault => f (m fault)) fun other => (x other).mapError f := by
  cases inside with
  | ok a given =>
      refine .ok a fun other keeps => ?_
      rw [given other keeps]
      rfl
  | own e cause given =>
      refine .own (f e) (causes e cause) fun other keeps => ?_
      rw [given other keeps]
      rfl
  | called r args fault failed given =>
      refine .called r args fault failed fun other fault' keeps failed' => ?_
      rw [given other fault' keeps failed']
      rfl

end Settled

namespace Expr

open Fault (Own)

theorem namedEntries_own (args : List (ArgForm × Value)) : Fails Own (namedEntries args) := by
  induction args with
  | nil => exact .ok []
  | cons arg args ih =>
      obtain ⟨form, v⟩ := arg
      cases form with
      | named name => exact ih.map
      | positional | spread | spreadNamed =>
          cases v with
          | map entries => exact ih.map
          | renderer r => exact ih
          | _ => exact .error trivial

theorem positionalValues_own (args : List (ArgForm × Value)) :
    Fails Own (positionalValues args) := by
  induction args with
  | nil => exact .ok []
  | cons arg args ih =>
      obtain ⟨form, v⟩ := arg
      cases form with
      | spread => exact Value.items_own.bind fun _ => ih.bind fun _ => .ok _
      | _ => exact ih.map

theorem ofGiven_own (positional named : List (ArgForm × Value)) :
    Fails Own (Args.ofGiven positional named) :=
  (namedEntries_own named).bind fun _ => (positionalValues_own positional).bind fun _ => .ok _

section

variable {call : Calling} {extra : List Function} {bindings : Dict Value}

theorem callValue_settled (callee : Value) (args : Args) :
    Settled call Own id fun other => callValue ⟨extra, bindings, other⟩ callee args := by
  cases callee with
  | function f => exact .of_fails (run_own f)
  | renderer r => exact .answer r args.all
  | _ => exact .of_fails (.error trivial)

theorem callMethod_settled (v : Value) (name : String) (args : Args) :
    Settled call Own id fun other => callMethod ⟨extra, bindings, other⟩ v name args := by
  unfold callMethod
  split
  · split
    · exact callValue_settled _ args
    · exact .of_fails (.error trivial)
  · exact .of_fails (.error trivial)

theorem callName_settled (name : String) (args : Args) :
    Settled call Own id fun other => callName ⟨extra, bindings, other⟩ name args := by
  unfold callName
  refine .ite (.of_fails (.error trivial)) (.ite (.of_fails (.error trivial)) ?_)
  have same (other : Calling) : Env.lookup? ⟨extra, bindings, other⟩ name =
      Env.lookup? ⟨extra, bindings, call⟩ name := rfl
  simp only [same]
  split
  · exact callValue_settled _ args
  · exact .of_fails (.error trivial)

/-- Evaluations with the same values, as long as the calls that `call` answers are answered alike.
They fail by themselves, or as soon as one of the other calls does. -/
def settling (call : Calling) : Comparison { other : Calling // call.Keeps other } where
  Fit _ := True
  FitArgs _ := True
  seen _ := id
  seenArgs _ := id
  Fails x := (∃ fault, Own fault ∧ ∀ other, x other = .error fault) ∨
    ∃ r args fault, call r args = .error fault ∧
      ∀ other fault', other.1 r args = .error fault' → x other = .error fault'
  fails_bind f := by
    rintro (⟨fault, own, same⟩ | ⟨r, args, fault, failed, follows⟩)
    · exact .inl ⟨fault, own, fun other => congrArg (· >>= f other) (same other)⟩
    · refine .inr ⟨r, args, fault, failed, fun other fault' failed' => ?_⟩
      exact congrArg (· >>= f other) (follows other fault' failed')

theorem alike_of_settled {α : Type} {P : α → Prop} {x : Calling → Except Fault α}
    (settled : Settled call Own id x) (holds : ∀ a, P a) :
    (settling call).Alike P (fun _ => id) fun other => x other.1 := by
  cases settled with
  | ok a given => exact .ok a (holds a) fun other => given other.1 other.2
  | own fault own given => exact .fails (.inl ⟨fault, own, fun other => given other.1 other.2⟩)
  | called r args fault failed given =>
      exact .fails (.inr ⟨r, args, fault, failed, fun other fault' => given other.1 fault' other.2⟩)

theorem settled_of_alike {x : Calling → Except Fault Value}
    (alike : (settling call).Gives fun other => x other.1) : Settled call Own id x := by
  cases alike with
  | ok v _ given => exact .ok v fun other keeps => given ⟨other, keeps⟩
  | fails failing =>
      obtain ⟨fault, own, given⟩ | ⟨r, args, fault, failed, given⟩ := failing
      · exact .own fault own fun other keeps => given ⟨other, keeps⟩
      · exact .called r args fault failed fun other fault' keeps => given ⟨other, keeps⟩ fault'

theorem alike_of_own {α : Type} {P : α → Prop} {x : Except Fault α} (own : Fails Own x)
    (holds : ∀ a, P a) : (settling call).Alike P (fun _ => id) fun _ => x :=
  alike_of_settled (x := fun _ => x) (.of_fails own) holds

theorem closed_settling : (settling call).Closed fun other => ⟨extra, bindings, other.1⟩ where
  null := ⟨trivial, fun _ => rfl⟩
  undefined := ⟨trivial, fun _ => rfl⟩
  bool b := ⟨trivial, fun _ => rfl⟩
  int n := ⟨trivial, fun _ => rfl⟩
  float x := ⟨trivial, fun _ => rfl⟩
  text s := ⟨trivial, fun _ => rfl⟩
  list {vs} _ := ⟨trivial, fun _ => (congrArg Value.list (List.map_id vs)).symm⟩
  ofEntries {entries} _ :=
    ⟨trivial, fun _ => (congrArg Value.ofEntries (List.map_id entries)).symm⟩
  isTrue _ _ := rfl
  lookup name := .ok ((Env.lookup? ⟨extra, bindings, call⟩ name).getD .undefined) trivial fun _ => rfl
  neg _ := alike_of_own Value.neg_own fun _ => trivial
  apply op _ _ _ _ := alike_of_own op.apply_own fun _ => trivial
  getAttr name _ _ := alike_of_own Value.getAttr_own fun _ => trivial
  getItem _ _ := alike_of_own Value.getItem_own fun _ => trivial
  slice _ _ _ _ := alike_of_own Value.slice_own fun _ => trivial
  applyFilter name _ _ _ _ := alike_of_own applyFilter_own fun _ => trivial
  applyTest name _ _ _ _ := alike_of_own applyTest_own fun _ => trivial
  ofGiven {positional named} _ _ := by
    simpa [settling] using alike_of_own (ofGiven_own positional named) fun _ => trivial
  callName name _ _ := alike_of_settled (callName_settled name _) fun _ => trivial
  callMethod name _ _ _ _ := alike_of_settled (callMethod_settled _ name _) fun _ => trivial
  callValue _ _ := alike_of_settled (callValue_settled _ _) fun _ => trivial
  unknownBlock name := alike_of_own (.error trivial) fun _ => trivial

/-- Evaluation asks for the value of one call after another. -/
theorem eval_settled (e : Expr) :
    Settled call Own id fun other => eval ⟨extra, bindings, other⟩ e :=
  settled_of_alike (eval_alike closed_settling e)

end

end Expr

/-- Whether a failure has no place yet, and takes the first that it is given. -/
def Error.Unplaced (e : Error) : Prop :=
  e.location? = none ∧ ∀ place, (e.located place).location? = some place

theorem Error.unplaced_evaluation (message : String) : (evaluation none message).Unplaced :=
  ⟨rfl, fun _ => rfl⟩

theorem Fault.unplaced {fault : Fault} (plain : ∀ e, fault ≠ .inPartial e) :
    fault.error.Unplaced := by
  cases fault with
  | inPartial e => exact absurd rfl (plain e)
  | _ => exact Error.unplaced_evaluation _

theorem Fault.Own.unplaced {fault : Fault} (own : fault.Own) : fault.error.Unplaced := by
  apply Fault.unplaced
  rintro e rfl
  exact own

theorem Fault.Formal.unplaced {fault : Fault} (formal : fault.Formal) : fault.error.Unplaced := by
  apply Fault.unplaced
  rintro e rfl
  exact formal

theorem Render.filterError_unplaced (name : String) (e : FilterError) :
    (filterError name e).Unplaced := by
  cases e with
  | missingDependency required => exact ⟨rfl, fun _ => rfl⟩
  | failed reason => exact Error.unplaced_evaluation _

section

variable {call : Calling} (d : Dialect) (c : Context)

theorem Dialect.evaluate_settled (code : String) :
    Settled call Error.Unplaced Fault.error fun other =>
      (d.evaluatorCalling other).evaluate code c := by
  cases d with
  | echo => exact .pure _
  | expressions extra =>
      simp only [Dialect.evaluatorCalling, Evaluator.Expressions.evaluator,
        Evaluator.Expressions.evaluate]
      refine Settled.mapError (m := id) (K := fun fault => fault.error.Unplaced) ?_ fun _ => id
      have parsed : Fails (fun fault => fault.error.Unplaced) (Expr.parse code) :=
        fun fault failed => (Expr.parse_formal code fault failed).unplaced
      exact (Settled.of_fails parsed).bind fun e =>
        (Expr.eval_settled e).mono fun fault => Fault.Own.unplaced

namespace Render

open Dialect (evaluate_settled)

theorem output_settled (code : String) (escape : Bool) :
    Settled call Error.Unplaced Fault.error fun other =>
      output (d.evaluatorCalling other) c code escape :=
  (evaluate_settled d c code).bind fun _ => .pure _

theorem segment_settled (escape : Bool) (s : Segment) :
    Settled call Error.Unplaced Fault.error fun other =>
      segment (d.evaluatorCalling other) c escape s := by
  cases s with
  | literal text => exact .pure _
  | expression code => exact (evaluate_settled d c code).bind fun _ => .pure _

theorem interpolate_settled (escape : Bool) (segments : List Segment) :
    Settled call Error.Unplaced Fault.error fun other =>
      interpolate (d.evaluatorCalling other) c escape segments := by
  induction segments with
  | nil => exact .pure _
  | cons s rest ih =>
      simp only [interpolate]
      exact (segment_settled d c escape s).bind fun _ => ih.bind fun _ => .pure _

theorem mergeEntry_settled (set : AttributeSet) (entry : AttributeEntry) :
    Settled call Error.Unplaced Fault.error fun other =>
      mergeEntry (d.evaluatorCalling other) c set entry := by
  match entry with
  | .fixed name value => exact .pure _
  | .dynamic name (.expression code) => exact (evaluate_settled d c code).bind fun _ => .pure _
  | .dynamic name (.interpolated segments) =>
      exact (interpolate_settled d c false segments).bind fun _ => .pure _
  | .splat code =>
      refine (evaluate_settled d c code).bind fun v => .of_fails ?_
      cases v with
      | map entries => exact .ok _
      | renderer r => exact .ok _
      | _ => exact .error (Error.unplaced_evaluation _)

theorem openTag_settled (settings : RenderSettings) (tag : CompiledTag) :
    Settled call Error.Unplaced Fault.error fun other =>
      openTag (d.evaluatorCalling other) c settings tag :=
  (Settled.foldlM (mergeEntry_settled d c) tag.computed tag.attributes).bind fun _ => .pure _

theorem content_settled (inner : ElementContent) :
    Settled call Error.Unplaced Fault.error fun other =>
      content (d.evaluatorCalling other) c inner := by
  cases inner with
  | interpolated segments escape => exact (interpolate_settled d c escape segments).map
  | output code escape => exact (output_settled d c code escape).map
  | _ => exact .pure _

theorem writeWith_settled {text : Calling → Except Error (List Char)} {b : Buffer}
    {write : List Char → Buffer} (written : Settled call Error.Unplaced Fault.error text) :
    Settled call Error.Unplaced Fault.error fun other => (writeWith b (text other) write).1 := by
  have same (other : Calling) : (writeWith b (text other) write).1 = (fun _ => ()) <$> text other := by
    cases text other <;> rfl
  simp only [same]
  exact written.map

theorem outcome_write_element (e : Evaluator) (settings : RenderSettings) (depth : Nat)
    (tag : CompiledTag) (inner : ElementContent) (line : Nat) (b : Buffer) :
    (write e settings c (.element depth tag inner line) b).1 =
      (fun _ => ()) <$> (openTag e c settings tag >>= fun opened =>
        content e c inner >>= fun inner => .ok (opened, inner)) := by
  simp only [write]
  cases openTag e c settings tag with
  | error failure => rfl
  | ok opened =>
      cases content e c inner with
      | error failure => simp only [bind, Except.bind, Functor.map, Except.map]
      | ok inner => simp only [bind, Except.bind, Functor.map, Except.map, pure, Except.pure]

/-- A step that runs no script asks for the values of calls as its expressions do. -/
theorem write_settled (settings : RenderSettings) (i : Instruction) (b : Buffer) :
    Settled call Error.Unplaced Fault.error fun other =>
      (write (d.evaluatorCalling other) settings c i b).1 := by
  cases i with
  | interpolated depth segments escape line =>
      exact writeWith_settled (interpolate_settled d c escape segments)
  | output depth code escape line => exact writeWith_settled (output_settled d c code escape)
  | openTag depth tag line => exact writeWith_settled (openTag_settled d c settings tag)
  | filter depth name filter text line =>
      refine writeWith_settled (.of_fails ?_)
      intro e failed
      cases ran : String.toList <$> filter text with
      | ok text =>
          rw [ran] at failed
          cases failed
      | error reason =>
          rw [ran] at failed
          cases failed
          exact filterError_unplaced name reason
  | element depth tag inner line =>
      have opening : Settled call Error.Unplaced Fault.error fun other =>
          openTag (d.evaluatorCalling other) c settings tag := openTag_settled d c settings tag
      have both := opening.bind fun opened =>
        (content_settled d c inner).bind fun inner => .pure (opened, inner)
      simp only [outcome_write_element]
      exact both.map
  | text depth text => exact .pure ()
  | closeTag depth name trimInner trimOuter => exact .pure ()
  | script code line body => exact .pure ()

end Render

end

inductive Script.FailsAs (K : Error → Prop) : Script → Prop
  | done {outcome : Except Error Branch} {c : Context} :
      Fails K outcome → FailsAs K (.done outcome c)
  | block {c : Context} {resume : Except Error Unit → Context → Script} :
      (∀ d, (resume (.ok ()) d).FailsAs K) → FailsAs K (.block c resume)

theorem Script.FailsAs.once {K : Error → Prop} (branch : Branch) (hasBlock : Bool) (c : Context) :
    (Script.once branch hasBlock c).FailsAs K := by
  cases hasBlock with
  | false => exact .done (.ok branch)
  | true => exact .block fun d => .done (.ok branch)

inductive Script.Settled (call : Calling) (c : Context) (s : Calling → Script) : Prop
  | own : (s call).FailsAs Error.Unplaced → Settled call c s
  | called (r : Renderer Value) (args : List Value) (fault : Fault) : call r args = .error fault →
      (∀ other fault', call.Keeps other → other r args = .error fault' →
        s other = .done (.error fault'.error) c) → Settled call c s

namespace Script.Settled

variable {call : Calling} {c : Context}

theorem of_value {value : Calling → Except Error Value} {next : Value → Script}
    (settled : Haml.Settled call Error.Unplaced Fault.error value)
    (own : ∀ v, (next v).FailsAs Error.Unplaced) :
    Settled call c fun other =>
      match value other with
      | .error e => .done (.error e) c
      | .ok v => next v := by
  cases settled with
  | ok v given =>
      refine .own ?_
      rw [given call (.refl call)]
      exact own v
  | own e cause given =>
      refine .own ?_
      rw [given call (.refl call)]
      exact .done (.error cause)
  | called r args fault failed given =>
      refine .called r args fault failed fun other fault' keeps failed' => ?_
      rw [given other fault' keeps failed']

end Script.Settled

namespace Evaluator.Expressions

open Fault (Own)

theorem unpack_own (item : Value) (i : Nat) (targets : List String) :
    Fails Own (unpack item i targets) := by
  induction targets generalizing i with
  | nil => exact .ok []
  | cons target rest ih =>
      exact Value.getItem_own.bind fun _ => (ih (i + 1)).bind fun _ => .ok _

theorem targetsAt_own (collection item : Value) (targets : List String) :
    Fails Own (targetsAt collection targets item) := by
  unfold targetsAt
  split
  · exact .ok _
  · exact .ite (Value.getItem_own.bind fun _ => .ok _) (unpack_own _ _ _)
  · exact unpack_own _ _ _

theorem eachItem_failsAs (collection : Value) (targets : List String) (length index : Nat)
    (items : List Value) (c : Context) :
    (eachItem collection targets length index items c).FailsAs Error.Unplaced := by
  induction items generalizing index c with
  | nil => exact .done (.ok _)
  | cons item rest ih =>
      unfold eachItem
      split
      · next fault failed =>
          exact .done (.error (targetsAt_own collection item targets fault failed).unplaced)
      · exact .block fun d => ih (index + 1) _

variable {call : Calling} {c : Context} {value? : Calling → String → Context → Except Error Value}
  (settled : ∀ code, Haml.Settled call Error.Unplaced Fault.error fun other => value? other code c)

include settled

theorem conditional_settled (condition : String) (wanted hasBlock : Bool) :
    Script.Settled call c fun other => conditional (value? other) condition wanted c hasBlock := by
  simp only [conditional]
  refine .of_value (settled condition) fun v => ?_
  split
  · exact .once .taken hasBlock c
  · exact .done (.ok _)

theorem each_settled (targets : List String) (items : String) (hasBlock : Bool) :
    Script.Settled call c fun other => each (value? other) targets items c hasBlock := by
  simp only [each]
  refine .of_value (settled items) fun v => ?_
  split
  · next fault failed => exact .done (.error (Value.items_own fault failed).unplaced)
  · exact .done (.ok _)
  · split
    · exact eachItem_failsAs ..
    · exact .done (.ok _)

theorem run_settled (statement : Statement) (previous : Branch) (hasBlock : Bool) :
    Script.Settled call c fun other => run (value? other) statement c previous hasBlock := by
  cases statement with
  | ifTrue condition => exact conditional_settled settled condition true hasBlock
  | ifFalse condition => exact conditional_settled settled condition false hasBlock
  | elseIf condition =>
      cases previous with
      | taken => exact .own (.done (.ok _))
      | skipped => exact conditional_settled settled condition true hasBlock
      | idle => exact .own (.done (.error (Error.unplaced_evaluation _)))
  | otherwise =>
      cases previous with
      | taken => exact .own (.done (.ok _))
      | skipped => exact .own (.once .idle hasBlock c)
      | idle => exact .own (.done (.error (Error.unplaced_evaluation _)))
  | each targets items => exact each_settled settled targets items hasBlock
  | assign name code =>
      simp only [run]
      exact .of_value (settled code) fun v => .done (.ok _)
  | blockEnd => exact .own (.done (.ok _))
  | expression code =>
      simp only [run]
      exact .of_value (settled code) fun v => .once .idle hasBlock c

end Evaluator.Expressions

theorem Dialect.execute_settled {call : Calling} (d : Dialect) (code : String) (c : Context)
    (previous : Branch) (hasBlock : Bool) :
    Script.Settled call c fun other =>
      (d.evaluatorCalling other).execute code c previous hasBlock := by
  cases d with
  | echo =>
      refine .own ?_
      cases hasBlock with
      | false => exact .done (.ok _)
      | true => exact .block fun d => .once .idle true d
  | expressions extra =>
      simp only [Dialect.evaluatorCalling, Evaluator.Expressions.evaluator]
      refine Evaluator.Expressions.run_settled (fun code => ?_) (Statement.read code) previous hasBlock
      exact (Dialect.expressions extra).evaluate_settled c code

end Haml
