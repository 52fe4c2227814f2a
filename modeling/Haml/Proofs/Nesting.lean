import Haml.Compile
import Haml.Partial
import Haml.Proofs.Counted.Context
/-! Renders of partials inside one another. A callable counts the renders around the place where it
was made; the limit holds for a run exactly if no callable that has counted fewer than the limit is
called at the limit, and so wherever partials are handed no callables from around them. -/

namespace Haml

abbrev Calling := Evaluator.Expressions.Render

def Calling.GivesMarkup (call : Calling) : Prop :=
  ∀ r args, Gives (fun v => ∃ text, v = .text text true) (call r args)

def Dialect.evaluatorCalling (call : Calling) : Dialect → Evaluator
  | .echo => Evaluator.Echo.evaluator
  | .expressions extra => Evaluator.Expressions.evaluator extra call

namespace Renderer

/-- Answers calls by rendering; those made inside `n` renders are answered by `innermost`. -/
def callInside (innermost : Calling) : Nat → Calling
  | 0 => innermost
  | n + 1 => fun r args =>
      r.call (fun t c => (t.run (c.dialect.evaluatorCalling (callInside innermost n)) c).1) args

/-- Whether a call names a registered partial and gives it variables that can be read. -/
def Asks (r : Renderer Value) (args : List Value) : Prop :=
  ∃ name locals t entries, arguments args = .ok (name, locals) ∧ r.partials.find? name = some t ∧
    localsOf locals = .ok entries

def Renders (r : Renderer Value) (args : List Value) : Prop := r.Asks args ∧ r.depth < maxDepth

def PassesCounted (r : Renderer Value) (args : List Value) : Prop :=
  ∀ name locals entries, arguments args = .ok (name, locals) → localsOf locals = .ok entries →
    (r.context entries).Counted (r.depth + 1)

def limitFault (name : String) : Fault :=
  .inPartial (.evaluation none ("partial `" ++ name ++ "` exceeded the recursion limit of " ++
    toString maxDepth))

end Renderer

def Template.runInside (t : Template) (innermost : Calling) (n : Nat) (c : Context) :
    Except Error String × Context :=
  t.run (c.dialect.evaluatorCalling (Renderer.callInside innermost n)) c

/-- Whether all calls that a run makes inside `n` renders satisfy `p`: what other calls there would
answer makes no difference. -/
def Template.OnlyCalls (t : Template) (p : Renderer Value → List Value → Prop) (n : Nat)
    (c : Context) : Prop :=
  ∀ a b : Calling, a.GivesMarkup → b.GivesMarkup → (∀ r args, p r args → a r args = b r args) →
    t.runInside a n c = t.runInside b n c

/-- Whether no more than `n` renders of partials ever stand inside one another in a run. -/
def Template.NestsWithin (t : Template) (n : Nat) (c : Context) : Prop :=
  t.OnlyCalls (fun r args => ¬ r.Renders args) n c

namespace Renderer

theorem call_eq_of_not_renders {r : Renderer Value} {args : List Value} (idle : ¬ r.Renders args)
    (f g : Template → Context → Except Error String) : r.call f args = r.call g args := by
  unfold call
  cases given : arguments args with
  | error fault => rfl
  | ok request =>
      obtain ⟨name, locals⟩ := request
      cases found : r.partials.find? name with
      | none => simp only [found, bind, Except.bind]
      | some t =>
          by_cases deep : maxDepth ≤ r.depth
          · simp only [found, deep, bind, Except.bind, if_true]
            rfl
          · cases read : localsOf locals with
            | error fault => simp only [found, deep, read, bind, Except.bind, if_false]
            | ok entries =>
                exact absurd ⟨⟨name, locals, t, entries, given, found, read⟩, by omega⟩ idle

theorem call_congr {r : Renderer Value} {args : List Value}
    {f g : Template → Context → Except Error String}
    (same : ∀ name locals t entries, arguments args = .ok (name, locals) →
      localsOf locals = .ok entries → f t (r.context entries) = g t (r.context entries)) :
    r.call f args = r.call g args := by
  unfold call
  cases given : arguments args with
  | error fault => rfl
  | ok request =>
      obtain ⟨name, locals⟩ := request
      cases found : r.partials.find? name with
      | none => simp only [found, bind, Except.bind]
      | some t =>
          cases read : localsOf locals with
          | error fault => simp only [found, read, bind, Except.bind]
          | ok entries =>
              simp only [found, read, same name locals t entries given read, bind, Except.bind]

theorem call_givesMarkup (r : Renderer Value) (args : List Value)
    (f : Template → Context → Except Error String) :
    Gives (fun v => ∃ text, v = .text text true) (r.call f args) := by
  unfold call
  refine .after fun request => ?_
  obtain ⟨name, locals⟩ := request
  dsimp only
  cases r.partials.find? name with
  | none => exact .error _
  | some t =>
      refine .ite (.error _) (.after fun entries => .after fun text => .ok ?_)
      exact ⟨text, rfl⟩

theorem call_eq_limitFault {r : Renderer Value} {args : List Value} (asks : r.Asks args)
    (deep : maxDepth ≤ r.depth) :
    ∃ name, ∀ f, r.call f args = .error (limitFault name) := by
  obtain ⟨name, locals, t, entries, given, found, -⟩ := asks
  refine ⟨name, fun f => ?_⟩
  unfold call
  simp only [given, found, deep, bind, Except.bind, if_true]
  rfl

theorem callInside_add (innermost : Calling) (m n : Nat) :
    callInside (callInside innermost m) n = callInside innermost (m + n) := by
  induction n with
  | zero => rfl
  | succ n ih =>
      simp only [callInside, ih]
      rfl

def answerBy (render : Template → Context → Except Error String) : Calling :=
  fun r args => r.call render args

theorem answerBy_givesMarkup (render : Template → Context → Except Error String) :
    Calling.GivesMarkup (answerBy render) := fun r args => call_givesMarkup r args render

theorem callInside_answerBy (render : Template → Context → Except Error String) (n : Nat) :
    ∃ inner, callInside (answerBy render) n = answerBy inner := by
  cases n with
  | zero => exact ⟨render, rfl⟩
  | succ n => exact ⟨_, rfl⟩

end Renderer

open Renderer

def Template.tooDeep : Template → Context → Except Error String :=
  fun _ _ => .error (.evaluation none "partials are nested too deeply")

open Template

theorem Dialect.evaluatorWithin_eq (n : Nat) (d : Dialect) :
    d.evaluatorWithin n = d.evaluatorCalling (callInside (answerBy tooDeep) n) := by
  induction n generalizing d with
  | zero => cases d with
      | echo => simp only [evaluatorWithin, evaluatorCalling]
      | expressions extra =>
          simp only [evaluatorWithin, evaluatorCalling, callInside]
          rfl
  | succ n ih =>
      cases d with
      | echo => simp only [evaluatorWithin, evaluatorCalling]
      | expressions extra => simp only [evaluatorWithin, evaluatorCalling, callInside, ih]

namespace Template

variable {t : Template} {c : Context}

theorem OnlyCalls.mono {p q : Renderer Value → List Value → Prop} {n : Nat}
    (only : t.OnlyCalls p n c) (weaker : ∀ r args, p r args → q r args) : t.OnlyCalls q n c :=
  fun a b first second agree => only a b first second fun r args h => agree r args (weaker r args h)

open Classical in
theorem OnlyCalls.and {p q : Renderer Value → List Value → Prop} {n : Nat}
    (first : t.OnlyCalls p n c) (second : t.OnlyCalls q n c) :
    t.OnlyCalls (fun r args => p r args ∧ q r args) n c := by
  intro a b markup markup' agree
  let mixed : Calling := fun r args => if p r args then a r args else b r args
  have markupMixed : mixed.GivesMarkup := fun r args => .ite (markup r args) (markup' r args)
  calc
    t.runInside a n c = t.runInside mixed n c :=
      first a mixed markup markupMixed fun r args h => (if_pos h).symm
    _ = t.runInside b n c := by
      refine second mixed b markupMixed markup' fun r args h => ?_
      by_cases here : p r args
      · exact (if_pos here).trans (agree r args ⟨here, h⟩)
      · exact if_neg here

/-- Where callables have counted at least `n` renders, a run calls no others. -/
theorem run_eq_of_agreeFrom {n : Nat} {a b : Calling} (calls : Expr.AgreeFrom n a b) {t : Template}
    {c : Context} (counted : c.Counted n) :
    t.run (c.dialect.evaluatorCalling a) c = t.run (c.dialect.evaluatorCalling b) c := by
  cases c.dialect with
  | echo => rfl
  | expressions extra =>
      refine (t.run_confined ?_ counted).1
      exact Evaluator.Expressions.evaluator_agreeOn calls

/-- Inside `n` renders only callables that have counted as many are called, if partials are handed
no others. The induction is on the renders: in the partial that a call renders, all callables have
counted one render more. -/
theorem onlyCalls_counted {n : Nat} (passed : ∀ m < n, t.OnlyCalls
    (fun r args => r.Renders args → r.PassesCounted args) m c) :
    t.OnlyCalls (fun r _ => n ≤ r.depth) n c := by
  induction n with
  | zero =>
      intro a b _ _ agree
      have same : a = b := funext fun r => funext fun args => agree r args (Nat.zero_le r.depth)
      rw [same]
  | succ n ih =>
      intro a b markup markup' agree
      have around := (ih fun m less => passed m (Nat.lt_succ_of_lt less)).and
        (passed n (Nat.lt_succ_self n))
      have calls : Expr.AgreeFrom (n + 1) a b := by
        intro r args deep _
        refine ⟨agree r args deep, fun v given => ?_⟩
        obtain ⟨text, rfl⟩ := markup r args v given
        exact .text ..
      have inner (call : Calling) : t.runInside call (n + 1) c = t.runInside
          (answerBy fun t c => (t.run (c.dialect.evaluatorCalling call) c).1) n c := by
        rw [runInside, Nat.add_comm, ← callInside_add]
        rfl
      rw [inner a, inner b]
      refine around _ _ (answerBy_givesMarkup _) (answerBy_givesMarkup _) fun r args here => ?_
      by_cases renders : r.Renders args
      · refine call_congr fun name locals t entries given read => ?_
        have passes := here.2 renders name locals entries given read
        rw [run_eq_of_agreeFrom calls (passes.mono (Nat.succ_le_succ here.1))]
      · exact call_eq_of_not_renders renders _ _

/-- How renders beyond the `n`-th would come out makes no difference to a run that stays within
`n`, however many of them there may be. -/
theorem NestsWithin.runInside_eq {n m : Nat} (within : t.NestsWithin n c) (le : n ≤ m)
    (f g : Template → Context → Except Error String) :
    t.runInside (answerBy f) m c = t.runInside (answerBy g) n c := by
  obtain ⟨k, rfl⟩ := Nat.exists_eq_add_of_le' le
  obtain ⟨inner, same⟩ := callInside_answerBy f k
  calc
    t.runInside (answerBy f) (k + n) c = t.runInside (callInside (answerBy f) k) n c := by
      simp only [runInside, callInside_add]
    _ = t.runInside (answerBy inner) n c := by rw [same]
    _ = t.runInside (answerBy g) n c :=
      within _ _ (answerBy_givesMarkup inner) (answerBy_givesMarkup g) fun r args idle =>
        call_eq_of_not_renders idle inner g

/-- A run that stays within `n` comes out the same however many further renders are allowed. -/
theorem NestsWithin.run_eq {n m : Nat} (within : t.NestsWithin n c) (le : n ≤ m) :
    t.run (c.dialect.evaluatorWithin m) c = t.run (c.dialect.evaluatorWithin n) c := by
  rw [Dialect.evaluatorWithin_eq, Dialect.evaluatorWithin_eq]
  exact within.runInside_eq le tooDeep tooDeep

theorem NestsWithin.execute_eq {n m : Nat} (within : t.NestsWithin n c) (le : n ≤ m)
    (allowed : n ≤ Dialect.maxNested) : t.execute c = t.run (c.dialect.evaluatorWithin m) c := by
  have executed : t.execute c = t.run (c.dialect.evaluatorWithin Dialect.maxNested) c := rfl
  rw [executed, within.run_eq allowed, within.run_eq le]

/-- The limit holds for a run exactly if every callable that is asked for a partial inside
`maxDepth` renders has counted them, and so if up to there all partials are handed only callables
that have counted their render. A callable that has counted the limit refuses, and the run comes out
the same however many renders are allowed. -/
theorem nestsWithin_maxDepth_iff (t : Template) (c : Context) :
    (t.NestsWithin maxDepth c ↔
      t.OnlyCalls (fun r args => r.Asks args → maxDepth ≤ r.depth) maxDepth c) ∧
    ((∀ n < maxDepth, t.OnlyCalls (fun r args => r.Renders args → r.PassesCounted args) n c) →
      t.NestsWithin maxDepth c) ∧
    (t.NestsWithin maxDepth c → ∀ n, maxDepth ≤ n →
      t.execute c = t.run (c.dialect.evaluatorWithin n) c) ∧
    ∀ (r : Renderer Value) args, r.Asks args → maxDepth ≤ r.depth →
      ∃ name, ∀ f, r.call f args = .error (limitFault name) := by
  refine ⟨⟨fun within => ?_, fun counted => ?_⟩, fun passed => ?_, fun within n le => ?_,
    fun r args asks deep => ?_⟩
  · refine within.mono fun r args idle asks => ?_
    exact Nat.le_of_not_lt fun shallow => idle ⟨asks, shallow⟩
  · refine counted.mono fun r args deep renders => ?_
    have counts := deep renders.1
    have below := renders.2
    omega
  · refine (onlyCalls_counted passed).mono fun r args deep renders => ?_
    have below := renders.2
    omega
  · exact within.execute_eq le (by decide)
  · exact call_eq_limitFault asks deep

end Template

/-! A callable handed on: a page gives its own callable to a partial, which calls it again for every
box around a list and hands it on. -/

namespace HandedOn

def pageCode : String := "render('p', \x7b'r': render, 'n': n\x7d)"

def partCode : String := "r('p', \x7b'r': r, 'n': n[0]\x7d) if n else 'end'"

def page : Template := ⟨"haml", [.output 0 pageCode false 1], Options.standard.renderSettings⟩

def part : Template := ⟨"p", [.output 0 partCode false 1], Options.standard.renderSettings⟩

def boxes : Nat → Value
  | 0 => .list []
  | n + 1 => .list [boxes n]

def context (k : Nat) : Context :=
  ((Context.new (.expressions [])).addPartial "p" part).bind "n" (boxes k)

def callable (k : Nat) : Renderer Value := ⟨.expressions [], 0, [("p", part)], [("n", boxes k)]⟩

def passed (k n : Nat) : List (String × Value) :=
  [("n", boxes n), ("r", .renderer (callable k))]

def locals (k n : Nat) : Value :=
  .map ((passed k n).map fun (name, v) => (.ofString name, v))

def request (k n : Nat) : List Value := [.ofString "p", locals k n]

def inside (k n : Nat) : Context :=
  ⟨.expressions [], passed k n, [], [("p", part)], [], 1⟩

def pageExpr : Expr :=
  .call (.var "render") [(.positional, .text "p"),
    (.positional, .map [(.text "r", .var "render"), (.text "n", .var "n")])]

def partExpr : Expr :=
  .cond (.var "n")
    (.call (.var "r") [(.positional, .text "p"),
      (.positional, .map [(.text "r", .var "r"), (.text "n", .item (.var "n") (.int 0))])])
    (some (.text "end"))

def isPageExpr : Except Fault Expr → Bool
  | .ok (.call (.var f) [(.positional, .text p),
      (.positional, .map [(.text r, .var render), (.text m, .var n)])]) =>
      f == "render" && p == "p" && r == "r" && render == "render" && m == "n" && n == "n"
  | _ => false

def isPartExpr : Except Fault Expr → Bool
  | .ok (.cond (.var test) (.call (.var f) [(.positional, .text p),
      (.positional, .map [(.text r, .var r'), (.text m, .item (.var n) (.int 0))])])
      (some (.text last))) =>
      test == "n" && f == "r" && p == "p" && r == "r" && r' == "r" && m == "n" && n == "n" &&
        last == "end"
  | _ => false

theorem parse_pageCode : Expr.parse pageCode = .ok pageExpr := by
  have read : isPageExpr (Expr.parse pageCode) = true := by decide +kernel
  unfold isPageExpr at read
  split at read
  · next parsed =>
      simp only [Bool.and_eq_true, beq_iff_eq] at read
      obtain ⟨⟨⟨⟨⟨rfl, rfl⟩, rfl⟩, rfl⟩, rfl⟩, rfl⟩ := read
      exact parsed
  · cases read

theorem parse_partCode : Expr.parse partCode = .ok partExpr := by
  have read : isPartExpr (Expr.parse partCode) = true := by decide +kernel
  unfold isPartExpr at read
  split at read
  · next parsed =>
      simp only [Bool.and_eq_true, beq_iff_eq] at read
      obtain ⟨⟨⟨⟨⟨⟨⟨rfl, rfl⟩, rfl⟩, rfl⟩, rfl⟩, rfl⟩, rfl⟩, rfl⟩ := read
      exact parsed
  · cases read

variable (k n : Nat) (call : Calling)

theorem eval_page :
    Expr.eval ⟨[], (context k).bindings, call⟩ pageExpr = call (callable k) (request k k) := by
  simp only [pageExpr, Expr.eval, Expr.evalArgs, Expr.evalGiven, Expr.evalEntries]
  rfl

theorem eval_part_zero :
    Expr.eval ⟨[], (inside k 0).bindings, call⟩ partExpr = .ok (.ofString "end") := by
  simp only [partExpr, Expr.eval, Expr.evalOr]
  rfl

theorem eval_part_succ :
    Expr.eval ⟨[], (inside k (n + 1)).bindings, call⟩ partExpr =
      call (callable k) (request k n) := by
  simp only [partExpr, Expr.eval, Expr.evalArgs, Expr.evalGiven, Expr.evalEntries]
  rfl

theorem isOk_run {t : Template} {code : String} (e : Evaluator) (c : Context)
    (instructions : t.instructions = [.output 0 code false 1]) :
    (t.run e c).1.isOk = (e.evaluate code c).isOk := by
  cases value : e.evaluate code c <;>
    simp [Template.run, instructions, Render.steps, Render.step, Render.write, Render.output,
      value, bind, Except.bind, Render.writeWith, Except.map, pure, Except.pure, Except.isOk,
      Except.toBool]

theorem isOk_output {t : Template} {code : String} {e : Expr} {c : Context}
    (read : Expr.parse code = .ok e) (instructions : t.instructions = [.output 0 code false 1])
    (dialect : c.dialect = .expressions []) :
    (t.run (c.dialect.evaluatorCalling call) c).1.isOk =
      (Expr.eval ⟨[], c.bindings, call⟩ e).isOk := by
  have evaluated : ((Dialect.expressions []).evaluatorCalling call).evaluate code c =
      (Expr.eval ⟨[], c.bindings, call⟩ e).mapError Fault.error := by
    rw [Dialect.evaluatorCalling, Evaluator.Expressions.evaluator]
    simp only [Evaluator.Expressions.evaluate, read]
    rfl
  rw [isOk_run _ c instructions, dialect, evaluated]
  cases Expr.eval ⟨[], c.bindings, call⟩ e <;> rfl

theorem isOk_call_request (f : Template → Context → Except Error String) :
    ((callable k).call f (request k n)).isOk = (f part (inside k n)).isOk := by
  have read : localsOf (some (locals k n)) = .ok (passed k n) := rfl
  have called : (callable k).call f (request k n) = (do
      let entries ← localsOf (some (locals k n))
      let text ← (f part ((callable k).context entries)).mapError Fault.inPartial
      return .text text true) := rfl
  have entered : (callable k).context (passed k n) = inside k n := rfl
  rw [called, read]
  simp only [bind, Except.bind, entered]
  cases f part (inside k n) <;> rfl

theorem isOk_callInside_succ (m : Nat) :
    (callInside call (m + 1) (callable k) (request k n)).isOk =
      (Expr.eval ⟨[], (inside k n).bindings, callInside call m⟩ partExpr).isOk := by
  rw [callInside, isOk_call_request]
  exact isOk_output _ parse_partCode rfl rfl

theorem isOk_callInside (m : Nat) :
    (callInside call m (callable k) (request k n)).isOk =
      if m ≤ n then (call (callable k) (request k (n - m))).isOk else true := by
  induction m generalizing n with
  | zero => simp [callInside]
  | succ m ih =>
      rw [isOk_callInside_succ]
      cases n with
      | zero =>
          rw [eval_part_zero]
          rfl
      | succ n =>
          rw [eval_part_succ, ih n]
          simp only [Nat.add_le_add_iff_right, Nat.add_sub_add_right]

theorem isOk_runInside (m : Nat) :
    (page.runInside call m (context k)).1.isOk =
      if m ≤ k then (call (callable k) (request k (k - m))).isOk else true := by
  have output : (page.runInside call m (context k)).1.isOk = _ :=
    isOk_output (callInside call m) parse_pageCode rfl rfl
  rw [output, eval_page, isOk_callInside]

theorem not_nestsWithin {m k : Nat} (le : m ≤ k) : ¬ page.NestsWithin m (context k) := by
  intro within
  have same := within.runInside_eq (Nat.le_refl m) (fun _ _ => .ok "") tooDeep
  have goes := isOk_runInside k (answerBy fun _ _ => .ok "") m
  rw [same, isOk_runInside, if_pos le, if_pos le] at goes
  simp only [answerBy, isOk_call_request] at goes
  cases goes

theorem isOk_execute {k : Nat} (lt : k < Dialect.maxNested) :
    (page.execute (context k)).1.isOk = true := by
  have executed : page.execute (context k) =
      page.runInside (answerBy tooDeep) Dialect.maxNested (context k) := by
    rw [Template.runInside, ← Dialect.evaluatorWithin_eq]
    rfl
  rw [executed, isOk_runInside, if_neg (Nat.not_le_of_lt lt)]

def isOutput (id code : String) : Except Error Template → Bool
  | .ok ⟨i, [.output 0 s false 1], ⟨true, '\'', false⟩⟩ => i == id && s == code
  | _ => false

theorem eq_of_isOutput {id code : String} {compiled : Except Error Template}
    (h : isOutput id code compiled = true) :
    compiled = .ok ⟨id, [.output 0 code false 1], Options.standard.renderSettings⟩ := by
  unfold isOutput at h
  split at h
  · simp only [Bool.and_eq_true, beq_iff_eq] at h
    obtain ⟨rfl, rfl⟩ := h
    rfl
  · cases h

theorem compile_page : Template.compile ("!= " ++ pageCode) Options.standard = .ok page :=
  eq_of_isOutput (by decide +kernel)

theorem compile_part :
    Template.compile ("!= " ++ partCode) { Options.standard with templateId := "p" } = .ok part :=
  eq_of_isOutput (by decide +kernel)

end HandedOn

/-- No limit holds for all runs. -/
theorem Template.exists_not_nestsWithin (n : Nat) :
    ∃ t c, Context.depth c = 0 ∧ ¬ Template.NestsWithin t n c :=
  ⟨HandedOn.page, HandedOn.context n, rfl, HandedOn.not_nestsWithin (Nat.le_refl n)⟩

/-- A page whose partials stand seventeen deep inside one another is rendered without failure. -/
theorem limit_passed :
    (∃ page part, Template.compile ("!= " ++ HandedOn.pageCode) Options.standard = .ok page ∧
      Template.compile ("!= " ++ HandedOn.partCode) { Options.standard with templateId := "p" } =
        .ok part ∧
      let c := ((Context.new (.expressions [])).addPartial "p" part).bind "n" (HandedOn.boxes 16)
      ¬ page.NestsWithin maxDepth c ∧ (page.execute c).1.isOk = true) :=
  ⟨HandedOn.page, HandedOn.part, HandedOn.compile_page, HandedOn.compile_part,
    HandedOn.not_nestsWithin (by decide), HandedOn.isOk_execute (by decide)⟩

end Haml
