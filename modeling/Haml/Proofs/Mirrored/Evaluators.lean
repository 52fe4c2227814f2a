import Haml.Partial
import Haml.Proofs.Deepened.Eval
import Haml.Proofs.Mirrored
/-! The evaluators in contexts that mirror one another: what they evaluate is deepened, and their
scripts keep the contexts alike. -/

namespace Haml

open Value

/-- Whether related contexts show the same variables, deepened, and stay related by what scripts do
to them. Their level counts the scopes that scripts have put up. -/
structure Context.Mirroring (k : Nat) (R : Nat → Context → Context → Prop) : Prop where
  bindings : ∀ {m c d}, R m c d → d.bindings = c.bindings.map (deepenBinding k)
  bind : ∀ {m c d}, R m c d → ∀ name v, R m (c.bind name v) (d.bind name (v.deepen k))
  assign : ∀ {m c d}, R m c d → ∀ name v, R m (c.assign name v) (d.assign name (v.deepen k))
  pushScope : ∀ {m c d}, R m c d → R (m + 1) c.pushScope d.pushScope
  popScope : ∀ {m c d}, R (m + 1) c d → R m c.popScope d.popScope

variable {k : Nat} {F : Error → Prop} {R : Nat → Context → Context → Prop}

theorem Context.Mirroring.bindAll (mirroring : Context.Mirroring k R) {m : Nat} {c d : Context}
    (here : R m c d) (entries : List (String × Value)) :
    R m (c.bindAll entries) (d.bindAll (entries.map (deepenBinding k))) := by
  induction entries generalizing c d with
  | nil => exact here
  | cons entry rest ih => exact ih (mirroring.bind here entry.1 entry.2)

namespace Evaluator

namespace Expressions

theorem unpack_deepen (item : Value) (i : Nat) (targets : List String) :
    unpack (item.deepen k) i targets = List.map (deepenBinding k) <$> unpack item i targets := by
  induction targets generalizing i with
  | nil => rfl
  | cons target rest ih =>
      apply bind_natural (getItem_deepen item (.int i))
      intro part
      exact bind_natural (ih (i + 1)) fun bound => rfl

theorem targetsAt_deepen (collection item : Value) (targets : List String) :
    targetsAt (collection.deepen k) targets (item.deepen k) =
      List.map (deepenBinding k) <$> targetsAt collection targets item := by
  unfold targetsAt
  split
  · rfl
  · rw [kind_deepen]
    split
    · exact bind_natural (getItem_deepen collection item) fun value => rfl
    · exact unpack_deepen item 0 _
  · exact unpack_deepen item 0 _

theorem loopValue_deepen (index length : Nat) :
    (loopValue index length).deepen k = loopValue index length := by
  rw [loopValue, ← ofEntries_deepen]
  rfl

section

variable {m : Nat} {c d : Context}

/-- Scripts that begin with an evaluation do alike if they go on alike with what it gives. -/
theorem afterValue_mirrored {x y : Except Error Value} (here : R m c d)
    {next next' : Value → Script} :
    Follows F (deepen k) x y →
    (∀ v : Value, Script.Mirrors F R m (next v) (next' (v.deepen k))) →
    Script.Mirrors F R m
      (match x with
        | .error e => .done (.error e) c
        | .ok v => next v)
      (match y with
        | .error e => .done (.error e) d
        | .ok v => next' v) := by
  intro value goes
  cases value with
  | same =>
      cases x with
      | error e => exact .done here
      | ok v => exact goes v
  | fails failing => exact .fails _ d failing

variable {value? value?' : String → Context → Except Error Value}

theorem conditional_mirrored (here : R m c d)
    (values : ∀ code, Follows F (deepen k) (value? code c) (value?' code d)) (condition : String)
    (wanted hasBlock : Bool) :
    Script.Mirrors F R m (conditional value? condition wanted c hasBlock)
      (conditional value?' condition wanted d hasBlock) := by
  unfold conditional
  apply afterValue_mirrored here (values condition)
  intro value
  rw [isTrue_deepen]
  split
  · exact .once here .taken hasBlock
  · exact .done here

theorem eachItem_mirrored (mirroring : Context.Mirroring k R) (collection : Value)
    (targets : List String) (length index : Nat) (items : List Value) (here : R m c d) :
    Script.Mirrors F R m (eachItem collection targets length index items c)
      (eachItem (collection.deepen k) targets length index (items.map (deepen k)) d) := by
  induction items generalizing index c d with
  | nil => exact .done here
  | cons item rest ih =>
      rw [List.map_cons]
      unfold eachItem
      rw [targetsAt_deepen]
      cases targetsAt collection targets item with
      | error fault => exact .done here
      | ok bound =>
          have inside := mirroring.bind (mirroring.bindAll (mirroring.pushScope here) bound) "loop"
            (loopValue index length)
          rw [loopValue_deepen] at inside
          refine .block (m + 1) inside (fun outcome c d there => ?_) fun e d => ?_
          · have after := mirroring.popScope there
            cases outcome with
            | error e => exact .done after
            | ok _ => exact ih (index + 1) after
          · exact ⟨d.popScope, rfl⟩

theorem each_mirrored (mirroring : Context.Mirroring k R) (here : R m c d)
    (values : ∀ code, Follows F (deepen k) (value? code c) (value?' code d))
    (targets : List String) (items : String) (hasBlock : Bool) :
    Script.Mirrors F R m (each value? targets items c hasBlock)
      (each value?' targets items d hasBlock) := by
  unfold each
  apply afterValue_mirrored here (values items)
  intro collection
  rw [items_deepen]
  cases collection.items with
  | error fault => exact .done here
  | ok items =>
      cases items with
      | nil => exact .done here
      | cons item rest =>
          cases hasBlock with
          | false => exact .done here
          | true =>
              change Script.Mirrors F R m
                (eachItem collection targets (item :: rest).length 0 (item :: rest) c)
                (eachItem (collection.deepen k) targets ((item :: rest).map (deepen k)).length 0
                  ((item :: rest).map (deepen k)) d)
              rw [List.length_map]
              exact eachItem_mirrored mirroring collection targets _ 0 _ here

theorem run_mirrored (mirroring : Context.Mirroring k R) (here : R m c d)
    (values : ∀ code, Follows F (deepen k) (value? code c) (value?' code d))
    (statement : Statement) (previous : Branch) (hasBlock : Bool) :
    Script.Mirrors F R m (run value? statement c previous hasBlock)
      (run value?' statement d previous hasBlock) := by
  cases statement with
  | ifTrue condition => exact conditional_mirrored here values condition true hasBlock
  | ifFalse condition => exact conditional_mirrored here values condition false hasBlock
  | elseIf condition =>
      cases previous with
      | taken => exact .done here
      | skipped => exact conditional_mirrored here values condition true hasBlock
      | idle => exact .done here
  | otherwise =>
      cases previous with
      | taken => exact .done here
      | skipped => exact .once here .idle hasBlock
      | idle => exact .done here
  | each targets items => exact each_mirrored mirroring here values targets items hasBlock
  | assign name code =>
      apply afterValue_mirrored here (values code)
      intro value
      exact .done (mirroring.assign here name value)
  | blockEnd => exact .done here
  | expression code =>
      apply afterValue_mirrored here (values code)
      intro value
      exact .once here .idle hasBlock

end

variable {extra : List Function} {a b : Render}

theorem evaluate_mirrored (mirroring : Context.Mirroring k R)
    (calls : Expr.CallsFollow k (fun fault => F fault.error) a b) {m : Nat} {c d : Context}
    (here : R m c d) (code : String) :
    Follows F (deepen k) (evaluate extra a code c) (evaluate extra b code d) := by
  unfold evaluate
  rw [mirroring.bindings here]
  apply Follows.mapError
  cases Expr.parse code with
  | error fault => exact .error _
  | ok e => exact Expr.eval_follows calls e

theorem evaluator_mirrors (mirroring : Context.Mirroring k R)
    (calls : Expr.CallsFollow k (fun fault => F fault.error) a b) :
    (evaluator extra a).Mirrors k F R (evaluator extra b) where
  evaluate := by
    intro m c d here code
    exact evaluate_mirrored mirroring calls here code
  execute := by
    intro m c d here code previous hasBlock
    simp only [evaluator]
    refine run_mirrored mirroring here (fun code => ?_) (Statement.read code) previous hasBlock
    exact evaluate_mirrored mirroring calls here code

end Expressions

theorem Echo.evaluator_mirrors : Echo.evaluator.Mirrors k F R Echo.evaluator where
  evaluate := by
    intro m c d _ code
    exact .ok (Value.ofString (Text.asciiUpper code))
  execute := by
    intro m c d here code previous hasBlock
    cases hasBlock with
    | false => exact .done here
    | true =>
        refine .block m here (fun outcome c d there => ?_) fun e d => ⟨d, rfl⟩
        cases outcome with
        | ok _ => exact .once there .idle true
        | error e => exact .done there

end Evaluator

end Haml
