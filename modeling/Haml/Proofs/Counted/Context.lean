import Haml.Evaluator.Expressions
import Haml.Proofs.Confined
import Haml.Proofs.Counted.Eval
/-! Contexts whose callables have counted the renders around them: scripts stay among them, and two
ways of answering calls make no difference there as long as they answer such callables alike. -/

namespace Haml

structure Context.Counted (n : Nat) (c : Context) : Prop where
  depth : n ≤ c.depth
  inner : ∀ entry ∈ c.inner, entry.2.Counted n
  outer : ∀ scope ∈ c.outer, ∀ entry ∈ scope, entry.2.Counted n

namespace Context

variable {n : Nat} {c : Context}

theorem Counted.mono {m : Nat} (counted : c.Counted n) (le : m ≤ n) : c.Counted m where
  depth := Nat.le_trans le counted.depth
  inner := fun entry member => (counted.inner entry member).mono le
  outer := fun scope within entry member => (counted.outer scope within entry member).mono le

theorem Counted.bind (counted : c.Counted n) (name : String) {v : Value} (value : v.Counted n) :
    (c.bind name v).Counted n :=
  { counted with inner := Dict.forall_insert counted.inner value }

theorem Counted.bindAll {entries : List (String × Value)} (counted : c.Counted n)
    (values : ∀ entry ∈ entries, entry.2.Counted n) : (c.bindAll entries).Counted n := by
  induction entries generalizing c with
  | nil => exact counted
  | cons entry rest ih =>
      obtain ⟨here, others⟩ := List.forall_mem_cons.mp values
      exact ih (counted.bind entry.1 here) others

theorem counted_assignIn {scopes : List Scope} (name : String) {v : Value} (value : v.Counted n)
    (counted : ∀ scope ∈ scopes, ∀ entry ∈ scope, entry.2.Counted n) :
    ∀ scope ∈ assignIn name v scopes, ∀ entry ∈ scope, entry.2.Counted n := by
  induction scopes with
  | nil => exact nofun
  | cons scope rest ih =>
      obtain ⟨here, others⟩ := List.forall_mem_cons.mp counted
      unfold assignIn
      split
      · exact List.forall_mem_cons.mpr ⟨Dict.forall_insert here value, others⟩
      · exact List.forall_mem_cons.mpr ⟨here, ih others⟩

theorem Counted.assign (counted : c.Counted n) (name : String) {v : Value} (value : v.Counted n) :
    (c.assign name v).Counted n := by
  unfold Context.assign
  split
  · exact counted.bind name value
  · exact { counted with outer := counted_assignIn name value counted.outer }

theorem Counted.pushScope (counted : c.Counted n) : c.pushScope.Counted n where
  depth := counted.depth
  inner := nofun
  outer := List.forall_mem_cons.mpr ⟨counted.inner, counted.outer⟩

theorem Counted.popScope (counted : c.Counted n) : c.popScope.Counted n := by
  unfold Context.popScope
  split
  · exact counted
  · next scope rest scopes =>
      have outer := counted.outer
      rw [scopes] at outer
      obtain ⟨here, others⟩ := List.forall_mem_cons.mp outer
      exact ⟨counted.depth, here, others⟩

theorem counted_flatten {scopes : List Scope}
    (counted : ∀ scope ∈ scopes, ∀ entry ∈ scope, entry.2.Counted n) :
    ∀ entry ∈ flatten scopes, entry.2.Counted n := by
  induction scopes with
  | nil => exact nofun
  | cons scope rest ih =>
      obtain ⟨here, others⟩ := List.forall_mem_cons.mp counted
      exact Dict.forall_merge (ih others) here

theorem Counted.bindings (counted : c.Counted n) : ∀ entry ∈ c.bindings, entry.2.Counted n := by
  have visible : ∀ entry ∈ c.visible, entry.2.Counted n :=
    counted_flatten (List.forall_mem_cons.mpr ⟨counted.inner, counted.outer⟩)
  unfold Context.bindings
  split
  · exact visible
  · exact Dict.forall_insert visible (.renderer counted.depth)

end Context

namespace Evaluator.Expressions

variable {n : Nat} {value? : String → Context → Except Error Value} {c : Context}

theorem conditional_stays (counted : c.Counted n) (condition : String) (wanted hasBlock : Bool) :
    (conditional value? condition wanted c hasBlock).Stays (Context.Counted n) := by
  unfold conditional
  split
  · exact .done counted
  · split
    · exact .once counted .taken hasBlock
    · exact .done counted

theorem unpack_counted {item : Value} (counted : item.Counted n) (i : Nat) (targets : List String) :
    Gives (fun bound : List (String × Value) => ∀ entry ∈ bound, entry.2.Counted n)
      (unpack item i targets) := by
  induction targets generalizing i with
  | nil => exact .ok nofun
  | cons target rest ih =>
      rw [unpack]
      refine (Value.getItem_counted counted (.int i)).bind fun part here => ?_
      exact (ih (i + 1)).bind fun bound others => .ok (List.forall_mem_cons.mpr ⟨here, others⟩)

theorem targetsAt_counted {collection item : Value} (whole : collection.Counted n)
    (part : item.Counted n) (targets : List String) :
    Gives (fun bound : List (String × Value) => ∀ entry ∈ bound, entry.2.Counted n)
      (targetsAt collection targets item) := by
  unfold targetsAt
  split
  · exact .ok (List.forall_mem_singleton.mpr part)
  · refine .ite ?_ (unpack_counted part 0 _)
    refine (Value.getItem_counted whole item).bind fun value here => .ok ?_
    exact List.forall_mem_cons.mpr ⟨part, List.forall_mem_singleton.mpr here⟩
  · exact unpack_counted part 0 _

theorem loopValue_counted (index length : Nat) : (loopValue index length).Counted n := by
  refine Value.counted_ofEntries ⟨?_, ?_⟩
  · simp only [List.forall_mem_cons]
    exact ⟨.text .., .text .., .text .., .text .., .text .., nofun⟩
  · simp only [List.forall_mem_cons]
    exact ⟨.int _, .int _, .bool _, .bool _, .int _, nofun⟩

theorem eachItem_stays {collection : Value} (whole : collection.Counted n) (targets : List String)
    (length index : Nat) {items : List Value} (parts : ∀ item ∈ items, item.Counted n)
    (counted : c.Counted n) :
    (eachItem collection targets length index items c).Stays (Context.Counted n) := by
  induction items generalizing index c with
  | nil => exact .done counted
  | cons item rest ih =>
      obtain ⟨here, others⟩ := List.forall_mem_cons.mp parts
      unfold eachItem
      split
      · exact .done counted
      · next bound found =>
          have values := targetsAt_counted whole here targets bound found
          refine .block ?_ fun outcome d there => ?_
          · exact (counted.pushScope.bindAll values).bind "loop" (loopValue_counted index length)
          · cases outcome with
            | error e => exact .done there.popScope
            | ok done => exact ih (index + 1) others there.popScope

section

variable (values : ∀ code, Gives (Value.Counted n) (value? code c)) (counted : c.Counted n)

include values counted

theorem each_stays (targets : List String) (items : String) (hasBlock : Bool) :
    (each value? targets items c hasBlock).Stays (Context.Counted n) := by
  unfold each
  split
  · exact .done counted
  · next collection found =>
      have whole := values items collection found
      split
      · exact .done counted
      · exact .done counted
      · next found =>
          split
          · exact eachItem_stays whole targets _ 0 (Value.items_counted whole _ found) counted
          · exact .done counted

theorem run_stays (statement : Statement) (previous : Branch) (hasBlock : Bool) :
    (run value? statement c previous hasBlock).Stays (Context.Counted n) := by
  cases statement with
  | ifTrue condition => exact conditional_stays counted condition true hasBlock
  | ifFalse condition => exact conditional_stays counted condition false hasBlock
  | elseIf condition =>
      cases previous with
      | taken => exact .done counted
      | skipped => exact conditional_stays counted condition true hasBlock
      | idle => exact .done counted
  | otherwise =>
      cases previous with
      | taken => exact .done counted
      | skipped => exact .once counted .idle hasBlock
      | idle => exact .done counted
  | each targets items => exact each_stays values counted targets items hasBlock
  | assign name code =>
      simp only [run]
      split
      · exact .done counted
      · next found => exact .done (counted.assign name (values code _ found))
  | blockEnd => exact .done counted
  | expression code =>
      simp only [run]
      split
      · exact .done counted
      · exact .once counted .idle hasBlock

end

/-- A script needs no values of expressions but those in the context it starts with. -/
theorem run_congr {other : String → Context → Except Error Value}
    (same : ∀ code, value? code c = other code c) (statement : Statement) (previous : Branch)
    (hasBlock : Bool) :
    run value? statement c previous hasBlock = run other statement c previous hasBlock := by
  cases statement with
  | otherwise | blockEnd => rfl
  | elseIf condition =>
      cases previous with
      | skipped => simp only [run, conditional, same]
      | taken | idle => rfl
  | _ => simp only [run, conditional, each, same]

theorem evaluate_agree {extra : List Function} {a b : Render} (calls : Expr.AgreeFrom n a b)
    (counted : c.Counted n) (code : String) :
    Agree (Value.Counted n) (evaluate extra a code c) (evaluate extra b code c) := by
  have evaluated : Agree (Value.Counted n)
      (Expr.parse code >>= fun e => Expr.eval ⟨extra, c.bindings, a⟩ e)
      (Expr.parse code >>= fun e => Expr.eval ⟨extra, c.bindings, b⟩ e) :=
    (Agree.of_gives (.any _)).bind fun e _ => Expr.eval_agree calls counted.bindings e
  exact evaluated.mapError

theorem evaluator_agreeOn {extra : List Function} {a b : Render} (calls : Expr.AgreeFrom n a b) :
    (evaluator extra a).AgreeOn (Context.Counted n) (evaluator extra b) where
  evaluate := by
    intro code c counted
    exact (evaluate_agree calls counted code).same
  execute := by
    intro code c previous hasBlock counted
    simp only [evaluator]
    refine run_congr (fun code => ?_) (Statement.read code) previous hasBlock
    exact (evaluate_agree calls counted code).same
  stays := by
    intro code c previous hasBlock counted
    simp only [evaluator]
    refine run_stays (fun code => ?_) counted (Statement.read code) previous hasBlock
    exact (evaluate_agree calls counted code).gives

end Evaluator.Expressions

end Haml
