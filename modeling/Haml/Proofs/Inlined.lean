import Haml.Proofs.Mirrored.Flattened
import Haml.Proofs.Nesting
/-! Partials rendered in place: a partial that an expression renders, in a context with one scope
that has counted a render more, comes out as its direct render does in the context around. -/

namespace Haml

open Value

/-- Evaluators of one dialect do alike if calls are answered alike. -/
theorem Dialect.evaluatorCalling_mirrors {k : Nat} {F : Error → Prop}
    {R : Nat → Context → Context → Prop} {a b : Calling} (mirroring : Context.Mirroring k R)
    (calls : Expr.CallsFollow k (fun fault => F fault.error) a b) (dialect : Dialect) :
    (dialect.evaluatorCalling a).Mirrors k F R (dialect.evaluatorCalling b) := by
  cases dialect with
  | echo => exact Evaluator.Echo.evaluator_mirrors
  | expressions extra => exact Evaluator.Expressions.evaluator_mirrors mirroring calls

namespace Renderer

def callUpTo (limit : Nat) (render : Template → Context → Except Error String) : Calling :=
  fun r args => do
    let (name, locals) ← arguments args
    let some template := r.partials.find? name
      | throw (.inPartial (.missingPartial name none))
    if limit ≤ r.depth then
      throw (limitFault name)
    let text ← (render template (r.context (← localsOf locals))).mapError Fault.inPartial
    return .text text true

/-- Answers calls by rendering up to a limit of depth; `n` renders may stand inside a call. -/
def levelsUpTo (limit : Nat) : Nat → Calling
  | 0 => callUpTo limit Template.tooDeep
  | n + 1 => callUpTo limit fun t c =>
      (t.run (c.dialect.evaluatorCalling (levelsUpTo limit n)) c).1

theorem levelsUpTo_maxDepth (n : Nat) :
    levelsUpTo maxDepth n = callInside (answerBy Template.tooDeep) n := by
  induction n with
  | zero => rfl
  | succ n ih =>
      rw [levelsUpTo, ih]
      rfl

theorem callUpTo_givesMarkup (limit : Nat) (render : Template → Context → Except Error String) :
    Calling.GivesMarkup (callUpTo limit render) := by
  intro r args
  unfold callUpTo
  apply Gives.after
  rintro ⟨name, locals⟩
  dsimp only
  cases r.partials.find? name with
  | none => exact .error _
  | some t =>
      refine .ite (.error _) (.after fun entries => .after fun text => .ok ?_)
      exact ⟨text, rfl⟩

/-! Calls of deepened callables. -/

section

variable {k : Nat}

theorem arguments_deepen (args : List Value) : arguments (args.map (Value.deepen k)) =
    Prod.map id (Option.map (Value.deepen k)) <$> arguments args := by
  match args with
  | [] => rfl
  | [name] => cases name <;> rfl
  | [name, locals] => cases name <;> rfl
  | name :: _ :: _ :: _ => cases name <;> rfl

theorem localsOf_deepen (locals : Option Value) : localsOf (locals.map (Value.deepen k)) =
    List.map (deepenBinding k) <$> localsOf locals := by
  cases locals with
  | none => rfl
  | some locals =>
      apply bind_natural (items_deepen locals)
      intro keys
      refine mapM_natural (fun key => ?_) keys
      rw [display_deepen]
      exact bind_natural (getItem_deepen locals key) fun v => rfl

theorem context_eq (r : Renderer Value) (locals : List (String × Value)) :
    r.context locals = { Context.new r.dialect with
      inner := Dict.merge (Dict.merge [] r.bindings) locals
      partials := r.partials
      depth := r.depth + 1 } := by
  rw [context, Context.bindAll_eq, Context.bindAll_eq]
  rfl

theorem context_flattens (r : Renderer Value) (locals : List (String × Value)) :
    Context.Flattens k 0 (r.context locals)
      ((r.deepen k).context (locals.map (deepenBinding k))) := by
  have ordered : (Dict.merge (Dict.merge [] r.bindings) locals).Ordered :=
    (Dict.ordered_nil.merge r.bindings).merge locals
  rw [context_eq, context_eq]
  refine ⟨rfl, rfl, Nat.add_right_comm .., ?_, Nat.zero_le _, List.forall_mem_singleton.mpr ordered⟩
  have merged : Dict.merge (Dict.merge [] (r.deepen k).bindings) (locals.map (deepenBinding k)) =
      (Dict.merge (Dict.merge [] r.bindings) locals).map (deepenBinding k) := by
    rw [← mergeBindings_deepen, ← mergeBindings_deepen]
    rfl
  have alone : Context.mergeBelow 0 [Dict.merge (Dict.merge [] r.bindings) locals] =
      [Dict.merge (Dict.merge [] r.bindings) locals] := congrArg (fun d => [d]) ordered.merge_nil
  exact (congrArg (fun d => [d]) merged).trans (congrArg (List.map _) alone).symm

theorem callUpTo_deepen {limit : Nat} {f g : Template → Context → Except Error String}
    (renders : ∀ t c d, Context.Flattens k 0 c d → g t d = f t c) (r : Renderer Value)
    (args : List Value) :
    callUpTo (limit + k) g (r.deepen k) (args.map (Value.deepen k)) =
      Value.deepen k <$> callUpTo limit f r args := by
  unfold callUpTo
  apply bind_natural (arguments_deepen args)
  rintro ⟨name, locals⟩
  have partials : (r.deepen k).partials = r.partials := rfl
  have deep : limit + k ≤ (r.deepen k).depth ↔ limit ≤ r.depth := Nat.add_le_add_iff_right
  simp only [Prod.map, partials, deep, id]
  cases r.partials.find? name with
  | none => rfl
  | some t =>
      dsimp only
      by_cases refused : limit ≤ r.depth
      · rw [if_pos refused, if_pos refused]
        rfl
      · rw [if_neg refused, if_neg refused]
        apply bind_natural (localsOf_deepen locals)
        intro entries
        rw [renders t _ _ (context_flattens r entries)]
        exact bind_same _ fun text => rfl

/-- A run does not see that the scopes below are one and that all callables have counted more, if
the limit of depth is put off as much. -/
theorem run_eq_of_flattens {a b : Calling} (calls : Expr.CallsFollow k (fun _ => False) a b)
    (t : Template) {c d : Context} {m : Nat} (flattens : Context.Flattens k m c d) :
    (t.run (d.dialect.evaluatorCalling b) d).1 = (t.run (c.dialect.evaluatorCalling a) c).1 := by
  have mirrors := c.dialect.evaluatorCalling_mirrors (F := fun _ => False)
    (Context.mirroring_flattens k) calls
  rw [flattens.dialect]
  exact ((t.run_mirrored mirrors nofun flattens).eq nofun).trans (id_map' _)

theorem levelsUpTo_follows (limit n : Nat) :
    Expr.CallsFollow k (fun _ => False) (levelsUpTo limit n) (levelsUpTo (limit + k) n) := by
  -- The induction is on the renders inside a call.
  induction n with
  | zero => exact fun r args => .of_eq (callUpTo_deepen (fun _ _ _ _ => rfl) r args)
  | succ n ih =>
      intro r args
      apply Follows.of_eq
      apply callUpTo_deepen
      intro t c d flattens
      exact run_eq_of_flattens ih t flattens

end

/-! The limit. -/

def AtLimit (r : Renderer Value) (args : List Value) : Prop :=
  (∃ name locals t, arguments args = .ok (name, locals) ∧ r.partials.find? name = some t) ∧
    maxDepth ≤ r.depth

theorem callUpTo_eq_of_not_atLimit {limit : Nat} (more : maxDepth ≤ limit)
    (render : Template → Context → Except Error String) {r : Renderer Value} {args : List Value}
    (goes : ¬ r.AtLimit args) : callUpTo limit render r args = callUpTo maxDepth render r args := by
  unfold callUpTo
  cases given : arguments args with
  | error fault => rfl
  | ok request =>
      obtain ⟨name, locals⟩ := request
      cases found : r.partials.find? name with
      | none => simp only [found, bind, Except.bind]
      | some t =>
          have shallow : ¬ maxDepth ≤ r.depth := fun deep =>
            goes ⟨⟨name, locals, t, given, found⟩, deep⟩
          have below : ¬ limit ≤ r.depth := fun deep => shallow (more.trans deep)
          simp only [found, shallow, below, bind, Except.bind, if_false]

/-- Putting the limit off makes no difference to a run that does not reach it. The induction is on
the levels inside which calls are still answered up to the later limit. -/
theorem runInside_levelsUpTo {t : Template} {c : Context}
    (shallow : ∀ n, t.OnlyCalls (fun r args => ¬ r.AtLimit args) n c) {limit : Nat}
    (more : maxDepth ≤ limit) (m n : Nat) :
    t.runInside (levelsUpTo limit m) n c = t.runInside (levelsUpTo maxDepth m) n c := by
  have same (render : Template → Context → Except Error String) (n : Nat) :
      t.runInside (callUpTo limit render) n c = t.runInside (callUpTo maxDepth render) n c :=
    shallow n _ _ (callUpTo_givesMarkup limit render) (callUpTo_givesMarkup maxDepth render)
      fun r args goes => callUpTo_eq_of_not_atLimit more render goes
  induction m generalizing n with
  | zero => exact same Template.tooDeep n
  | succ m ih =>
      have deeper (call : Calling) : t.runInside (callUpTo maxDepth fun t c =>
          (t.run (c.dialect.evaluatorCalling call) c).1) n c = t.runInside call (n + 1) c := by
        rw [Template.runInside, Template.runInside, Nat.add_comm, ← callInside_add]
        rfl
      calc
        t.runInside (levelsUpTo limit (m + 1)) n c = t.runInside (callUpTo maxDepth fun t c =>
            (t.run (c.dialect.evaluatorCalling (levelsUpTo limit m)) c).1) n c := same _ n
        _ = t.runInside (levelsUpTo limit m) (n + 1) c := deeper _
        _ = t.runInside (levelsUpTo maxDepth m) (n + 1) c := ih (n + 1)
        _ = t.runInside (levelsUpTo maxDepth (m + 1)) n c := (deeper _).symm

end Renderer

open Renderer

/-- Whether a run reaches no limit: no call in it is refused for its depth, and renders nest less
than is allowed in all. -/
structure Template.Unhindered (t : Template) (c : Context) : Prop where
  shallow : ∀ n, t.OnlyCalls (fun r args => ¬ r.AtLimit args) n c
  within : ∃ n < Dialect.maxNested, t.NestsWithin n c

/-- A render in a stack of scopes comes out as the run inside a call that gets them as one. -/
theorem Template.render_eq_of_flattens {t : Template} {c d : Context}
    (flattens : Context.Flattens 1 0 c d) (unhindered : t.Unhindered d) :
    t.render c = (t.run (d.dialect.evaluatorWithin (Dialect.maxNested - 1)) d).1 := by
  obtain ⟨n, less, within⟩ := unhindered.within
  have evaluators (dialect : Dialect) : dialect.evaluatorWithin Dialect.maxNested =
      dialect.evaluatorCalling (levelsUpTo maxDepth Dialect.maxNested) := by
    rw [Dialect.evaluatorWithin_eq, levelsUpTo_maxDepth]
  have direct : t.render c = (t.run (c.dialect.evaluatorWithin Dialect.maxNested) c).1 := rfl
  -- The stack is compared with a call that may go one deeper; the limits that are then one too high
  -- are brought back because the run reaches neither.
  calc
    t.render c = (t.run (d.dialect.evaluatorCalling
        (levelsUpTo (maxDepth + 1) Dialect.maxNested)) d).1 := by
      rw [direct, evaluators]
      exact (run_eq_of_flattens (levelsUpTo_follows maxDepth Dialect.maxNested) t flattens).symm
    _ = (t.run (d.dialect.evaluatorWithin Dialect.maxNested) d).1 := by
      rw [evaluators]
      exact congrArg Prod.fst
        (runInside_levelsUpTo unhindered.shallow (Nat.le_succ maxDepth) Dialect.maxNested 0)
    _ = (t.run (d.dialect.evaluatorWithin (Dialect.maxNested - 1)) d).1 := by
      rw [within.run_eq less.le, within.run_eq (Nat.le_sub_one_of_lt less)]

/-! Variables without callables. -/

theorem map_eq_self {α : Type} {f : α → α} {as : List α} (same : ∀ a ∈ as, f a = a) :
    as.map f = as := by
  rw [List.map_congr_left same, List.map_id']

theorem Value.deepen_of_counted {k : Nat} {v : Value} (plain : ∀ n, v.Counted n) :
    v.deepen k = v := by
  have bare := plain 0
  induction bare with
  | undefined | null | bool | int | float | text | function => rfl
  | list _ ih =>
      rw [deepen_list]
      refine congrArg list (map_eq_self fun v member => ih v member fun n => ?_)
      cases plain n with
      | list items => exact items v member
  | iter sized _ ih =>
      rw [deepen_iter]
      refine congrArg (iter · sized) (map_eq_self fun v member => ih v member fun n => ?_)
      cases plain n with
      | iter _ items => exact items v member
  | map _ _ keys values =>
      rw [deepen_map]
      refine congrArg map (map_eq_self fun entry member => Prod.ext ?_ ?_)
      · refine keys entry member fun n => ?_
        cases plain n with
        | map keys _ => exact keys entry member
      · refine values entry member fun n => ?_
        cases plain n with
        | map _ values => exact values entry member
  -- A callable that is below every number there is does not exist.
  | @renderer r _ =>
      cases plain (r.depth + 1) with
      | renderer deep => exact absurd deep (Nat.not_succ_le_self r.depth)

/-- Whether a context can call partials as the one around a document: its scopes are in order, and
no variable it shows is called `render` or holds a callable. -/
structure Context.Plain (c : Context) : Prop where
  ordered : ∀ scope ∈ c.scopes, scope.Ordered
  free : c.visible.contains "render" = false
  values : ∀ entry ∈ c.visible, ∀ n, entry.2.Counted n

/-- Whether the entries of a map can be the variables of a partial: their keys are texts, each
different, and no value holds a callable. -/
structure Value.Locals (entries : List (Value × Value)) : Prop where
  texts : ∀ entry ∈ entries, ∃ s safe, entry.1 = .text s safe
  distinct : (entries.map fun entry => entry.1.display).Nodup
  values : ∀ entry ∈ entries, ∀ n, entry.2.Counted n

def Value.variables (entries : List (Value × Value)) : List (String × Value) :=
  entries.map fun (key, v) => (key.display, v)

theorem Value.Locals.variables {entries : List (Value × Value)} (locals : Value.Locals entries) :
    ∀ entry ∈ Value.variables entries, ∀ n, entry.2.Counted n :=
  List.forall_mem_map.mpr locals.values

theorem Value.compare_text (s t : String) (safe other : Bool) :
    (text s safe).compare (text t other) = Ord.compare s t := by
  rw [compare.eq_def]
  rfl

theorem Value.Locals.atKey?_eq {entries : List (Value × Value)} (locals : Value.Locals entries)
    {key v : Value} (member : (key, v) ∈ entries) : atKey? key entries = some v := by
  induction entries with
  | nil => cases member
  | cons first rest ih =>
      obtain ⟨⟨s, safe, here⟩, texts⟩ := List.forall_mem_cons.mp locals.texts
      obtain ⟨fresh, distinct⟩ := List.nodup_cons.mp locals.distinct
      obtain ⟨-, values⟩ := List.forall_mem_cons.mp locals.values
      obtain ⟨found, w⟩ := first
      dsimp only at here
      subst here
      rw [atKey?]
      rcases List.mem_cons.mp member with same | later
      · cases same
        have equal : Ord.compare s s = .eq := Std.ReflCmp.compare_self
        rw [compare_text, equal]
        rfl
      · obtain ⟨t, other, there⟩ := texts (key, v) later
        dsimp only at there
        subst there
        have different : s ≠ t := by
          rintro rfl
          exact fresh (List.mem_map.mpr ⟨_, later, rfl⟩)
        have skipped : ((text s safe).compare (text t other) == .eq) = false := by
          rw [compare_text, beq_eq_false_iff_ne, ne_eq, Std.LawfulEqOrd.compare_eq_iff_eq]
          exact different
        rw [if_neg (Bool.eq_false_iff.mp skipped)]
        exact ih ⟨texts, distinct, values⟩ later

-- Keys are looked up in the whole map while the induction goes through a part of it.
theorem Value.Locals.mapM_getItem {entries chosen : List (Value × Value)}
    (locals : Value.Locals entries) (within : ∀ entry ∈ chosen, entry ∈ entries) :
    (chosen.map Prod.fst).mapM (fun key => do return (key.display, ← (map entries).getItem key)) =
      (.ok (Value.variables chosen) : Except Fault _) := by
  induction chosen with
  | nil => rfl
  | cons entry rest ih =>
      obtain ⟨here, others⟩ := List.forall_mem_cons.mp within
      have found : (map entries).item? entry.1 = .some entry.2 := locals.atKey?_eq here
      have item : (map entries).getItem entry.1 = .ok entry.2 := by
        unfold getItem
        rw [found]
      rw [List.map_cons, List.mapM_cons, item, ih others]
      rfl

theorem Renderer.localsOf_map {entries : List (Value × Value)} (locals : Value.Locals entries) :
    localsOf (some (.map entries)) = .ok (Value.variables entries) :=
  locals.mapM_getItem fun _ member => member

namespace Context

theorem map_deepen_of_counted {k : Nat} {d : Dict Value}
    (plain : ∀ entry ∈ d, ∀ n, entry.2.Counted n) : d.map (deepenBinding k) = d := by
  refine map_eq_self fun entry member => ?_
  exact congrArg (entry.1, ·) (Value.deepen_of_counted (plain entry member))

/-- A partial gets what the context around it shows, with its own variables above. -/
theorem flattens_renderer_context {c d : Context} {entries : List (String × Value)}
    (dialect : d.dialect = c.dialect) (partials : d.partials = c.partials)
    (depth : d.depth = c.depth) (ordered : ∀ scope ∈ d.scopes, scope.Ordered)
    (visible : d.visible = c.visible.merge entries)
    (values : ∀ entry ∈ d.visible, ∀ n, entry.2.Counted n) :
    Flattens 1 0 d (c.renderer.context entries) := by
  rw [Renderer.context_eq]
  refine ⟨dialect.symm, partials.symm, congrArg (· + 1) depth.symm, ?_, Nat.zero_le _, ordered⟩
  have inner : Dict.merge (Dict.merge [] c.visible) entries = d.visible := by
    rw [(ordered_flatten c.scopes).merge_nil (d := c.visible), visible]
  have bare : d.visible.map (deepenBinding 1) = d.visible := map_deepen_of_counted values
  exact (congrArg (fun scope => [scope]) (inner.trans bare.symm))

theorem Plain.flattens {c : Context} (plain : c.Plain) :
    Flattens 1 0 c (c.renderer.context []) :=
  flattens_renderer_context rfl rfl rfl plain.ordered rfl plain.values

theorem Plain.flattens_bindAll {c : Context} (plain : c.Plain) {entries : List (String × Value)}
    (values : ∀ entry ∈ entries, ∀ n, entry.2.Counted n) :
    Flattens 1 0 (c.pushScope.bindAll entries) (c.renderer.context entries) := by
  have visible : (c.pushScope.bindAll entries).visible = c.visible.merge entries := by
    rw [bindAll_eq]
    exact ((ordered_flatten c.scopes).merge_merge Dict.ordered_nil entries).symm
  rw [bindAll_eq] at visible ⊢
  refine flattens_renderer_context rfl rfl rfl ?_ visible ?_
  · exact List.forall_mem_cons.mpr ⟨Dict.ordered_nil.merge entries, plain.ordered⟩
  · rw [visible]
    exact Dict.forall_merge (P := fun v : Value => ∀ n, v.Counted n) plain.values values

end Context

/-! Calls in expressions. -/

def Expr.renderCall (name : String) (locals : Option Expr) : Expr :=
  .call (.var "render") ((.positional, .text name) :: (locals.map fun e => (.positional, e)).toList)

section

variable {env : Expr.Env} {r : Renderer Value} (bound : env.lookup? "render" = some (.renderer r))

include bound

theorem Expr.callName_render (args : Args) : callName env "render" args = env.render r args.all := by
  have other : ("render" : String) ≠ "super" := by decide
  have another : ("render" : String) ≠ "loop" := by decide
  rw [callName, if_neg other, if_neg another, bound]
  rfl

theorem Expr.eval_renderCall (name : String) :
    eval env (renderCall name none) = env.render r [.ofString name] := by
  have args : evalArgs env [(.positional, .text name)] = .ok ⟨[.ofString name], none⟩ := by
    simp only [evalArgs, evalGiven, eval]
    rfl
  have called : eval env (renderCall name none) =
      evalArgs env [(.positional, .text name)] >>= callName env "render" := by
    rw [renderCall, eval]
    rfl
  rw [called, args]
  exact callName_render bound _

theorem Expr.eval_renderCall_some (name : String) (locals : Expr) :
    eval env (renderCall name (some locals)) =
      eval env locals >>= fun v => env.render r [.ofString name, v] := by
  have args : evalArgs env [(.positional, .text name), (.positional, locals)] =
      (fun v => ⟨[.ofString name, v], none⟩) <$> eval env locals := by
    simp only [evalArgs, evalGiven, eval]
    cases eval env locals with
    | error fault => rfl
    | ok v => rfl
  have called : eval env (renderCall name (some locals)) =
      evalArgs env [(.positional, .text name), (.positional, locals)] >>= callName env "render" := by
    rw [renderCall, eval]
    rfl
  rw [called, args]
  cases eval env locals with
  | error fault => rfl
  | ok v => exact callName_render bound _

end

theorem Fault.message_error_inPartial (e : Error) : (inPartial e).error.message = e.message := by
  cases e <;> rfl

theorem Renderer.call_of_found {r : Renderer Value} {args : List Value} {name : String}
    {locals : Option Value} {t : Template} {entries : List (String × Value)}
    (given : arguments args = .ok (name, locals)) (found : r.partials.find? name = some t)
    (shallow : r.depth < maxDepth) (read : localsOf locals = .ok entries)
    (render : Template → Context → Except Error String) :
    r.call render args =
      ((render t (r.context entries)).mapError Fault.inPartial).map (.text · true) := by
  have below : ¬ maxDepth ≤ r.depth := Nat.not_le_of_lt shallow
  unfold call
  simp only [given, found, read, below, bind, Except.bind, if_false]
  cases render t (r.context entries) <;> rfl

theorem Dialect.evaluate_calling (extra : List Function) (call : Calling) (code : String)
    (c : Context) : ((expressions extra).evaluatorCalling call).evaluate code c =
      (Expr.parse code >>= Expr.eval ⟨extra, c.bindings, call⟩).mapError Fault.error := rfl

namespace Context

theorem evaluate_eq {c : Context} {extra : List Function} (dialect : c.dialect = .expressions extra)
    (code : String) :
    c.evaluator.evaluate code c = (Expr.parse code >>= Expr.eval ⟨extra, c.bindings,
      callInside (answerBy Template.tooDeep) Dialect.maxNested⟩).mapError Fault.error := by
  have evaluator : c.evaluator =
      c.dialect.evaluatorCalling (callInside (answerBy Template.tooDeep) Dialect.maxNested) :=
    Dialect.evaluatorWithin_eq Dialect.maxNested c.dialect
  rw [evaluator, dialect, Dialect.evaluate_calling]

theorem lookup?_render (extra : List Function) (call : Calling) {c : Context} {name : String}
    {t : Template} (free : c.visible.contains "render" = false)
    (found : c.partials.find? name = some t) :
    Expr.Env.lookup? ⟨extra, c.bindings, call⟩ "render" = some (.renderer c.renderer) := by
  have known : c.partials.isEmpty = false := by
    cases partials : c.partials with
    | nil =>
        rw [partials] at found
        cases found
    | cons entry rest => rfl
  have absent : c.visible.find? "render" = none := by
    simpa [Dict.contains] using free
  have bindings : c.bindings = c.visible.insert "render" (.renderer c.renderer) := by
    simp [Context.bindings, known, defines, absent]
  rw [Expr.Env.lookup?, bindings, Dict.find?_insert_self]
  rfl

theorem call_of_flattens {c d : Context} {args : List Value} {name : String} {locals : Option Value}
    {t : Template} {entries : List (String × Value)} (given : arguments args = .ok (name, locals))
    (found : c.partials.find? name = some t) (shallow : c.depth < maxDepth)
    (read : localsOf locals = .ok entries) (flattens : Flattens 1 0 d (c.renderer.context entries))
    (unhindered : t.Unhindered (c.renderer.context entries)) :
    callInside (answerBy Template.tooDeep) Dialect.maxNested c.renderer args =
      ((t.render d).mapError Fault.inPartial).map (.text · true) := by
  have inner : callInside (answerBy Template.tooDeep) Dialect.maxNested = answerBy fun t c =>
      (t.run (c.dialect.evaluatorWithin (Dialect.maxNested - 1)) c).1 := by
    simp only [Dialect.evaluatorWithin_eq]
    rfl
  rw [Template.render_eq_of_flattens flattens unhindered, inner]
  exact call_of_found given found shallow read _

/-- A partial that an expression renders comes out as its direct render in the context of the
expression, with its own variables in one more scope. -/
theorem evaluate_partial {c : Context} {extra : List Function} {name : String} {t : Template}
    (dialect : c.dialect = .expressions extra) (plain : c.Plain)
    (found : c.partials.find? name = some t) (shallow : c.depth < maxDepth) :
    (∀ code, Expr.parse code = .ok (.renderCall name none) →
      t.Unhindered (c.renderer.context []) →
      (c.evaluator.evaluate code c).mapError Error.message =
        ((t.render c).map (.text · true)).mapError Error.message) ∧
    ∀ code argument e entries, Expr.parse code = .ok (.renderCall name (some e)) →
      Expr.parse argument = .ok e → c.evaluator.evaluate argument c = .ok (.map entries) →
      Value.Locals entries → t.Unhindered (c.renderer.context (Value.variables entries)) →
      (c.evaluator.evaluate code c).mapError Error.message =
        ((t.render (c.pushScope.bindAll (Value.variables entries))).map
          (.text · true)).mapError Error.message := by
  have bound := lookup?_render extra (callInside (answerBy Template.tooDeep) Dialect.maxNested)
    plain.free found
  have messages (x : Except Error String) :
      ((((x.mapError Fault.inPartial).map (.text · true)).mapError Fault.error).mapError
        Error.message : Except String Value) = (x.map (.text · true)).mapError Error.message := by
    cases x with
    | ok text => rfl
    | error e => exact congrArg Except.error (Fault.message_error_inPartial e)
  refine ⟨fun code read unhindered => ?_, fun code argument e entries read whole value locals
    unhindered => ?_⟩
  · have given : arguments [.ofString name] = .ok (name, none) := rfl
    have called := call_of_flattens given found shallow rfl plain.flattens unhindered
    have evaluated : Expr.parse code >>= Expr.eval ⟨extra, c.bindings,
        callInside (answerBy Template.tooDeep) Dialect.maxNested⟩ =
        ((t.render c).mapError Fault.inPartial).map (.text · true) := by
      rw [read, ← called]
      exact Expr.eval_renderCall bound name
    rw [evaluate_eq dialect, evaluated, messages]
  · have given : arguments [.ofString name, .map entries] = .ok (name, some (.map entries)) := rfl
    have called := call_of_flattens given found shallow (localsOf_map locals)
      (plain.flattens_bindAll locals.variables) unhindered
    have evaluated : Expr.parse code >>= Expr.eval ⟨extra, c.bindings,
        callInside (answerBy Template.tooDeep) Dialect.maxNested⟩ =
        ((t.render (c.pushScope.bindAll (Value.variables entries))).mapError
          Fault.inPartial).map (.text · true) := by
      rw [read, ← called]
      refine (Expr.eval_renderCall_some bound name e).trans ?_
      rw [evaluate_eq dialect, whole] at value
      have argued : Expr.eval ⟨extra, c.bindings,
          callInside (answerBy Template.tooDeep) Dialect.maxNested⟩ e = .ok (.map entries) :=
        ok_of_mapError value
      rw [argued]
      rfl
    rw [evaluate_eq dialect, evaluated, messages]

end Context

/-! A partial that shows a variable: of an outer scope, or one of its own. -/

namespace Inlined

def part : Template := ⟨"p", [.output 0 "x" false 1], Options.standard.renderSettings⟩

def context : Context :=
  (((Context.new (.expressions [])).addPartial "p" part).bind "x" (.ofString "out")).pushScope.bind
    "y" (.int 1)

def entries : List (Value × Value) := [(.ofString "x", .ofString "in")]

def entriesExpr : Expr := .map [(.text "x", .text "in")]

def isVar : Except Fault Expr → Bool
  | .ok (.var name) => name == "x"
  | _ => false

def isCall (name : String) : Except Fault Expr → Bool
  | .ok (.call (.var f) [(.positional, .text found)]) => f == "render" && found == name
  | _ => false

def isEntries : Except Fault Expr → Bool
  | .ok (.map [(.text key, .text v)]) => key == "x" && v == "in"
  | _ => false

def isCallWithEntries : Except Fault Expr → Bool
  | .ok (.call (.var f) [(.positional, .text name), (.positional, e)]) =>
      f == "render" && name == "p" && isEntries (.ok e)
  | _ => false

theorem eq_of_isEntries {read : Except Fault Expr} (h : isEntries read = true) :
    read = .ok entriesExpr := by
  unfold isEntries at h
  split at h
  · simp only [Bool.and_eq_true, beq_iff_eq] at h
    obtain ⟨rfl, rfl⟩ := h
    rfl
  · cases h

theorem parse_var : Expr.parse "x" = .ok (.var "x") := by
  have read : isVar (Expr.parse "x") = true := by decide +kernel
  unfold isVar at read
  split at read
  · next parsed =>
      rw [parsed, beq_iff_eq.mp read]
  · cases read

theorem eq_of_isCall {name : String} {read : Except Fault Expr} (h : isCall name read = true) :
    read = .ok (.renderCall name none) := by
  unfold isCall at h
  split at h
  · simp only [Bool.and_eq_true, beq_iff_eq] at h
    obtain ⟨rfl, rfl⟩ := h
    rfl
  · cases h

theorem parse_call : Expr.parse "render('p')" = .ok (.renderCall "p" none) :=
  eq_of_isCall (by decide +kernel)

theorem parse_entries : Expr.parse "\x7b'x': 'in'\x7d" = .ok entriesExpr :=
  eq_of_isEntries (by decide +kernel)

theorem parse_callWithEntries :
    Expr.parse "render('p', \x7b'x': 'in'\x7d)" = .ok (.renderCall "p" (some entriesExpr)) := by
  have read : isCallWithEntries (Expr.parse "render('p', \x7b'x': 'in'\x7d)") = true := by
    decide +kernel
  unfold isCallWithEntries at read
  split at read
  · next parsed =>
      simp only [Bool.and_eq_true, beq_iff_eq] at read
      obtain ⟨⟨rfl, rfl⟩, argument⟩ := read
      cases eq_of_isEntries argument
      exact parsed
  · cases read

theorem run_part (a b : Calling) (c : Context) :
    part.run (c.dialect.evaluatorCalling a) c = part.run (c.dialect.evaluatorCalling b) c := by
  have same : (c.dialect.evaluatorCalling a).evaluate "x" c =
      (c.dialect.evaluatorCalling b).evaluate "x" c := by
    cases c.dialect with
    | echo => rfl
    | expressions extra =>
        simp only [Dialect.evaluatorCalling, Evaluator.Expressions.evaluator,
          Evaluator.Expressions.evaluate, parse_var, bind, Except.bind, Expr.eval]
        rfl
  simp only [Template.run, part, Render.steps, Render.step, Render.write, Render.output, same]

theorem unhindered_part (c : Context) : part.Unhindered c where
  shallow := fun _ _ _ _ _ _ => run_part _ _ c
  within := ⟨0, by decide, fun _ _ _ _ _ => run_part _ _ c⟩

theorem plain_context : context.Plain where
  ordered := by
    exact List.forall_mem_cons.mpr ⟨List.pairwise_singleton .., List.forall_mem_singleton.mpr
      (List.pairwise_singleton ..)⟩
  free := rfl
  values := by
    have visible : context.visible = [("x", .ofString "out"), ("y", .int 1)] := rfl
    rw [visible]
    exact List.forall_mem_cons.mpr ⟨fun _ => .text .., List.forall_mem_singleton.mpr fun _ => .int 1⟩

theorem locals_entries : Value.Locals entries where
  texts := List.forall_mem_singleton.mpr ⟨"x", false, rfl⟩
  distinct := List.nodup_singleton _
  values := List.forall_mem_singleton.mpr fun _ => .text ..

theorem evaluate_entries :
    context.evaluator.evaluate "\x7b'x': 'in'\x7d" context = .ok (.map entries) := by
  have dialect : context.dialect = .expressions [] := rfl
  rw [Context.evaluate_eq dialect, parse_entries]
  simp only [entriesExpr, bind, Except.bind, Expr.eval, Expr.evalEntries]
  rfl

end Inlined

/-- With or without variables of its own, the partial shows what it shows directly. -/
theorem Context.evaluate_partial_sample :
    (Inlined.context.evaluator.evaluate "render('p')" Inlined.context).mapError Error.message =
        ((Inlined.part.render Inlined.context).map (Value.text · true)).mapError Error.message ∧
      (Inlined.context.evaluator.evaluate "render('p', \x7b'x': 'in'\x7d)"
          Inlined.context).mapError Error.message =
        ((Inlined.part.render (Inlined.context.pushScope.bindAll
          (Value.variables Inlined.entries))).map (Value.text · true)).mapError Error.message := by
  have found : Inlined.context.partials.find? "p" = some Inlined.part := rfl
  have dialect : Inlined.context.dialect = .expressions [] := rfl
  obtain ⟨bare, given⟩ :=
    Context.evaluate_partial dialect Inlined.plain_context found (by decide)
  exact ⟨bare _ Inlined.parse_call (Inlined.unhindered_part _),
    given _ _ _ _ Inlined.parse_callWithEntries Inlined.parse_entries Inlined.evaluate_entries
      Inlined.locals_entries (Inlined.unhindered_part _)⟩

end Haml
