import Haml.Proofs.Failures
import Haml.Proofs.Located.Points
import Haml.Proofs.Loops
/-! Places of failures: a render that fails gives the template and the line of the instruction that
has failed first, however many scripts, loops and partials stand around it. -/

namespace Haml

open Renderer

namespace Renderer

/-- Whether a call has template `p` rendered in the context `d`. -/
def Opens (r : Renderer Value) (args : List Value) (p : Template) (d : Context) : Prop :=
  ∃ name locals entries, arguments args = .ok (name, locals) ∧ r.partials.find? name = some p ∧
    r.depth < maxDepth ∧ localsOf locals = .ok entries ∧ r.context entries = d

variable {r : Renderer Value} {args : List Value} {p : Template} {d : Context}

theorem Opens.unique {p' : Template} {d' : Context} (opens : r.Opens args p d)
    (also : r.Opens args p' d') : p' = p ∧ d' = d := by
  obtain ⟨name, locals, entries, given, found, -, read, rfl⟩ := opens
  obtain ⟨name', locals', entries', given', found', -, read', rfl⟩ := also
  rw [given] at given'
  cases given'
  rw [found] at found'
  rw [read] at read'
  cases found'
  cases read'
  exact ⟨rfl, rfl⟩

theorem Opens.call_eq (opens : r.Opens args p d)
    (render : Template → Context → Except Error String) :
    r.call render args = ((render p d).mapError Fault.inPartial).map (.text · true) := by
  obtain ⟨name, locals, entries, given, found, shallow, read, rfl⟩ := opens
  exact call_of_found given found shallow read render

open Fault (Own)

theorem arguments_own (args : List Value) : Fails Own (arguments args) := by
  unfold arguments
  split
  · exact .ok _
  · exact .ok _
  · exact .error trivial
  · exact .error trivial
  · exact .error trivial

theorem localsOf_own (locals : Option Value) : Fails Own (localsOf locals) := by
  cases locals with
  | none => exact .ok []
  | some v =>
      refine Value.items_own.bind fun keys => .mapM (fun key => ?_) keys
      exact Value.getItem_own.bind fun _ => .ok _

theorem unplaced_or_opens {render : Template → Context → Except Error String} {fault : Fault}
    (failed : r.call render args = .error fault) :
    fault.error.Unplaced ∨ ∃ p d failure, r.Opens args p d ∧ render p d = .error failure := by
  cases given : arguments args with
  | error reason =>
      have same : r.call render args = .error reason := by
        simp only [call, given, bind, Except.bind]
      rw [same] at failed
      cases failed
      exact .inl (arguments_own args fault given).unplaced
  | ok request =>
      obtain ⟨name, locals⟩ := request
      cases found : r.partials.find? name with
      | none =>
          simp only [call, given, found, bind, Except.bind] at failed
          cases failed
          exact .inl ⟨rfl, fun _ => rfl⟩
      | some p =>
          by_cases deep : maxDepth ≤ r.depth
          · simp only [call, given, found, deep, bind, Except.bind, if_true] at failed
            cases failed
            exact .inl (Error.unplaced_evaluation _)
          · cases read : localsOf locals with
            | error reason =>
                simp only [call, given, found, deep, read, bind, Except.bind, if_false] at failed
                cases failed
                exact .inl (localsOf_own locals fault read).unplaced
            | ok entries =>
                have opens : r.Opens args p (r.context entries) :=
                  ⟨name, locals, entries, given, found, Nat.lt_of_not_le deep, read, rfl⟩
                rw [opens.call_eq render] at failed
                cases rendered : render p (r.context entries) with
                | ok text =>
                    rw [rendered] at failed
                    cases failed
                | error failure => exact .inr ⟨p, _, failure, opens, rendered⟩

end Renderer

namespace Template

def runWithin (t : Template) (n : Nat) (c : Context) : Except Error String :=
  (t.run (c.dialect.evaluatorWithin n) c).1

def StopsAt (t : Template) (n : Nat) (c : Context) (s : Render.Point) : Prop :=
  Render.FailsAt (c.dialect.evaluatorWithin n) t.id t.settings t.instructions .idle ⟨c, .empty⟩ s

/-- Whether what fails in the step at a point is a render of `p` in the context `d`, inside which `n`
more renders may stand. -/
def FailsInside (t : Template) (n : Nat) (c : Context) (s : Render.Point) (p : Template)
    (d : Context) : Prop :=
  ∃ r args, s.Blames c.dialect (callInside (answerBy tooDeep) (n + 1)) t.id t.settings r args ∧
    r.Opens args p d

/-- Whether a run fails at an instruction, which is its own or that of a partial: the run of that
template stops there, and not because a partial that is rendered there has failed. -/
inductive FailsAt : Nat → Template → Context → Template → Instruction → Prop
  | own {n : Nat} {t : Template} {c : Context} {s : Render.Point} :
      t.StopsAt n c s → (∀ m p d, n = m + 1 → ¬ t.FailsInside m c s p d) →
      FailsAt n t c t s.instruction
  | inPartial {n : Nat} {t p u : Template} {c d : Context} {s : Render.Point} {i : Instruction} :
      t.StopsAt (n + 1) c s → t.FailsInside n c s p d → FailsAt n p d u i → FailsAt (n + 1) t c u i

variable {n : Nat} {t p : Template} {c d : Context} {s : Render.Point}

theorem FailsInside.unique {p' : Template} {d' : Context} (inside : t.FailsInside n c s p d)
    (also : t.FailsInside n c s p' d') : p' = p ∧ d' = d := by
  obtain ⟨r, args, blames, opens⟩ := inside
  obtain ⟨r', args', blames', opens'⟩ := also
  obtain ⟨rfl, rfl⟩ := blames.unique blames'
  exact opens.unique opens'

theorem callInside_succ (n : Nat) : callInside (answerBy tooDeep) (n + 1) =
    answerBy fun t c => t.runWithin n c := by
  simp only [runWithin, Dialect.evaluatorWithin_eq]
  rfl

theorem FailsInside.fails (inside : t.FailsInside n c s p d) :
    ∃ failure, p.runWithin n d = .error failure ∧
      s.outcome (c.dialect.evaluatorWithin (n + 1)) t.id t.settings =
        .error (Fault.inPartial failure).error := by
  obtain ⟨r, args, blames, opens⟩ := inside
  obtain ⟨fault, answered⟩ := blames.1
  have called := answered
  rw [callInside_succ, answerBy, opens.call_eq] at called
  cases ran : p.runWithin n d with
  | ok text =>
      rw [ran] at called
      cases called
  | error failure =>
      rw [ran] at called
      cases called
      rw [Dialect.evaluatorWithin_eq]
      exact ⟨failure, rfl, blames.2 _ _ (.refl _) answered⟩

theorem StopsAt.unique {other : Render.Point} (stops : t.StopsAt n c s)
    (also : t.StopsAt n c other) : other = s :=
  Render.FailsAt.unique (c.dialect.passesFailures n) stops also

theorem exists_stopsAt {failure : Error} (failed : t.runWithin n c = .error failure) :
    ∃ s, t.StopsAt n c s := by
  cases ended : (Render.steps (c.dialect.evaluatorWithin n) t.id t.settings t.instructions .idle
    ⟨c, .empty⟩).1 with
  | error reason => exact Render.exists_failsAt _ _ _ ended
  | ok done =>
      simp only [runWithin, run, ended] at failed
      cases failed

theorem exists_failsAt {failure : Error} (failed : t.runWithin n c = .error failure) :
    ∃ u i, FailsAt n t c u i := by
  -- The induction is on the renders that may stand inside the run.
  induction n generalizing t c failure with
  | zero =>
      obtain ⟨s, stops⟩ := exists_stopsAt failed
      exact ⟨t, _, .own stops nofun⟩
  | succ n ih =>
      obtain ⟨s, stops⟩ := exists_stopsAt failed
      by_cases inside : ∃ p d, t.FailsInside n c s p d
      · obtain ⟨p, d, inside⟩ := inside
        obtain ⟨reason, broken, -⟩ := inside.fails
        obtain ⟨u, i, failsAt⟩ := ih broken
        exact ⟨u, i, .inPartial stops inside failsAt⟩
      · refine ⟨t, _, .own stops fun m p d same within => inside ⟨p, d, ?_⟩⟩
        cases same
        exact within

theorem FailsAt.unique {u v : Template} {i j : Instruction} (failsAt : FailsAt n t c u i)
    (also : FailsAt n t c v j) : v = u ∧ j = i := by
  induction failsAt generalizing v j with
  | own stops alone =>
      cases also with
      | own stops' _ =>
          cases stops.unique stops'
          exact ⟨rfl, rfl⟩
      | inPartial stops' inside _ =>
          cases stops.unique stops'
          exact absurd inside (alone _ _ _ rfl)
  | inPartial stops inside _ ih =>
      cases also with
      | own stops' alone =>
          cases stops.unique stops'
          exact absurd inside (alone _ _ _ rfl)
      | inPartial stops' inside' failsAt =>
          cases stops.unique stops'
          obtain ⟨rfl, rfl⟩ := inside.unique inside'
          exact ih failsAt

theorem FailsAt.among {u : Template} {i : Instruction} (failsAt : FailsAt n t c u i) :
    i.Among u.instructions := by
  induction failsAt with
  | own stops _ => exact Render.FailsAt.among stops
  | inPartial _ _ _ ih => exact ih

/-- What fails in a step has no place yet, unless it is a partial. -/
theorem StopsAt.unplaced (stops : t.StopsAt n c s) {failure : Error}
    (failed : s.outcome (c.dialect.evaluatorWithin n) t.id t.settings = .error failure)
    (alone : ∀ m p d, n = m + 1 → ¬ t.FailsInside m c s p d) : failure.Unplaced := by
  have whole := Render.FailsAt.whole stops
  rw [Dialect.evaluatorWithin_eq] at failed whole
  rcases Render.Point.unplaced_or_blames failed whole with unplaced | ⟨r, args, blames⟩
  · exact unplaced
  · obtain ⟨fault, answered⟩ := blames.1
    have ended := blames.2 _ fault (.refl _) answered
    rw [failed] at ended
    cases ended
    cases n with
    | zero =>
        rcases unplaced_or_opens answered with unplaced | ⟨p, d, reason, opens, broken⟩
        · exact unplaced
        · cases broken
          rw [callInside, answerBy, opens.call_eq] at answered
          cases answered
          exact Error.unplaced_evaluation _
    | succ n =>
        have called := answered
        rw [callInside_succ] at called
        rcases unplaced_or_opens called with unplaced | ⟨p, d, reason, opens, broken⟩
        · exact unplaced
        · exact absurd ⟨r, args, blames, opens⟩ (alone n p d rfl)

/-- What stops a run with a place is how the run ends. -/
theorem StopsAt.ends (stops : t.StopsAt n c s) :
    ∃ failure, s.outcome (c.dialect.evaluatorWithin n) t.id t.settings = .error failure ∧
      ∃ line, s.instruction.line? = some line ∧
        ∀ place, (failure.located ⟨t.id, line⟩).location? = some place →
          t.runWithin n c = .error (failure.located ⟨t.id, line⟩) := by
  obtain ⟨failure, failed, ends⟩ := Render.FailsAt.steps (c.dialect.passesFailures n) stops
  obtain ⟨line, here⟩ := Render.line_of_step_fails failed
  refine ⟨failure, failed, line, here, fun place located => ?_⟩
  have same : Render.locate t.id s.instruction failure = failure.located ⟨t.id, line⟩ := by
    rw [Render.locate, here]
  rw [same] at ends
  simp only [runWithin, run, ends place located]
  rfl

theorem FailsAt.located {u : Template} {i : Instruction} (failsAt : FailsAt n t c u i) :
    ∃ line failure, i.line? = some line ∧ t.runWithin n c = .error failure ∧
      failure.location? = some ⟨u.id, line⟩ := by
  -- The induction is on the partials that fail inside one another.
  induction failsAt with
  | @own n t c s stops alone =>
      obtain ⟨failure, failed, line, here, ends⟩ := stops.ends
      have placed := (stops.unplaced failed alone).2 ⟨t.id, line⟩
      exact ⟨line, _, here, ends _ placed, placed⟩
  | @inPartial n t p u c d s i stops inside _ ih =>
      obtain ⟨line, failure, here, broken, place⟩ := ih
      obtain ⟨failure', broken', failed⟩ := inside.fails
      cases broken.symm.trans broken'
      have passed := (Fault.location?_error_inPartial failure).trans place
      obtain ⟨reason, failed', around, -, ends⟩ := stops.ends
      cases failed.symm.trans failed'
      have kept := Error.located_of_location passed ⟨t.id, around⟩
      rw [kept] at ends
      exact ⟨line, _, here, ends _ passed, passed⟩

/-- A render that fails has failed at one instruction first, and its failure has the place of that:
the template that the instruction stands in and its line. In a compiled template that is the line of
the node whose code has failed. -/
theorem execute_located {failure : Error} (failed : (t.execute c).1 = .error failure) :
    ∃ u i line, FailsAt Dialect.maxNested t c u i ∧
      (∀ v j, FailsAt Dialect.maxNested t c v j → v = u ∧ j = i) ∧ i.Among u.instructions ∧
      i.line? = some line ∧ failure.location? = some ⟨u.id, line⟩ ∧
      ∀ source o, compile source o = .ok u → ∃ forest, ∃ node ∈ forest.preorder,
        Document.read o.indentUnit source = .ok forest ∧ Compile.Writes o node.2 i ∧
        node.2.line = line ∧
        Document.Stands 1 (Text.physicalLines source.toList) (Entry.of node) := by
  obtain ⟨u, i, failsAt⟩ := exists_failsAt failed
  obtain ⟨line, reason, here, ended, place⟩ := failsAt.located
  cases failed.symm.trans ended
  refine ⟨u, i, line, failsAt, fun v j => failsAt.unique, failsAt.among, here, place, ?_⟩
  intro source o compiled
  obtain ⟨forest, read, compiled⟩ := bind_ok compiled
  have emitted := (Compile.emitsAll_of_compile compiled).1
  obtain ⟨node, member, writes⟩ := emitted.fromNodes 0 i failsAt.among line here
  have stands := Document.stands_of_read read node member
  exact ⟨forest, node, member, read, writes, writes.line here, stands⟩

end Template

/-! A loop in which a partial is rendered, whose filter fails. -/

namespace Locating

def loopCode : String := "for x in xs"

def body : List Instruction := [.output 0 "render('p')" false 2]

def page : Template := ⟨"haml", [.script loopCode 1 body], Options.standard.renderSettings⟩

def context : Context :=
  ((Context.new (.expressions [])).addPartial "p" (Failing.part (.failed "bad"))).bind "xs"
    (.list [.int 1])

def inside : Context :=
  (context.pushScope.bindAll [("x", .int 1)]).bind "loop" (Evaluator.Expressions.loopValue 0 1)

def failure : Error := (Render.filterError "textile" (.failed "bad")).located ⟨"p", 1⟩

def call : Calling := callInside (answerBy Template.tooDeep) Dialect.maxNested

theorem call_part : call inside.renderer [.ofString "p"] = .error (.inPartial failure) := by
  have known : inside.renderer.partials.find? "p" = some (Failing.part (.failed "bad")) := rfl
  have shallow : inside.renderer.depth < maxDepth := by decide
  have opens : inside.renderer.Opens [.ofString "p"] (Failing.part (.failed "bad"))
      (inside.renderer.context []) := ⟨"p", none, [], rfl, known, shallow, rfl, rfl⟩
  have answers : call = _ := Template.callInside_succ 999
  rw [answers, answerBy, opens.call_eq, Template.runWithin, Failing.run_part]
  rfl

theorem steps_body : Render.steps (context.dialect.evaluatorCalling call) "haml"
      Options.standard.renderSettings body .idle ⟨inside, .empty⟩ =
    (.error failure, ⟨inside, .empty⟩) := by
  have known : inside.partials.find? "p" = some (Failing.part (.failed "bad")) := rfl
  have value : (context.dialect.evaluatorCalling call).evaluate "render('p')" inside =
      .error failure := by
    refine (Failing.evaluate_call (c := inside) Inlined.parse_call rfl rfl known call).trans ?_
    rw [call_part]
    rfl
  simp only [body, Render.steps, Render.step, Render.write, Render.output, value, bind, Except.bind,
    Render.writeWith]
  rfl

def resume (outcome : Except Error Unit) (c : Context) : Script :=
  match outcome with
  | .error e => .done (.error e) c.popScope
  | .ok () => .done (.ok .taken) c.popScope

theorem execute_page : (page.execute context).1 = .error failure := by
  have xs : Expr.parse "xs" = .ok (.var "xs") := Expr.parse_of_isVar (by decide +kernel)
  have read : Statement.read loopCode = .each ["x"] "xs" := by decide +kernel
  have collection : (Evaluator.Expressions.evaluator [] call).evaluate "xs" context =
      .ok (.list [.int 1]) := Evaluator.Expressions.evaluate_var xs context
  have script : (Evaluator.Expressions.evaluator [] call).execute loopCode context .idle
      (!body.isEmpty) = .block inside resume := by
    simp only [Evaluator.Expressions.evaluator] at collection
    simp only [Evaluator.Expressions.evaluator, read, Evaluator.Expressions.run,
      Evaluator.Expressions.each, collection]
    rfl
  have evaluator : context.evaluator = Evaluator.Expressions.evaluator [] call :=
    Dialect.evaluatorWithin_eq Dialect.maxNested context.dialect
  have block : Render.block (Evaluator.Expressions.evaluator [] call) "haml"
      Options.standard.renderSettings body inside .empty = (.error failure, inside, .empty) :=
    congrArg (fun ran => (ran.1, ran.2.context, ran.2.buffer)) steps_body
  have step : Render.step (Evaluator.Expressions.evaluator [] call) "haml"
      Options.standard.renderSettings (.script loopCode 1 body) .idle ⟨context, .empty⟩ =
        (.error failure, ⟨inside.popScope, .empty⟩) := by
    simp only [Render.step_script, script, Script.run, block, resume]
  rw [Template.execute, evaluator]
  simp only [Template.run, page, Render.steps, step]
  rfl

end Locating

/-- The failure has the line of the filter in the partial, not those of the loop and the output. -/
theorem Template.execute_located_inside : ∃ failure u i line,
    (Locating.page.execute Locating.context).1 = .error failure ∧
      FailsAt Dialect.maxNested Locating.page Locating.context u i ∧
      i.line? = some line ∧ failure.location? = some ⟨u.id, line⟩ ∧ (u.id, line) = ("p", 1) := by
  obtain ⟨u, i, line, failsAt, -, -, here, place, -⟩ :=
    Template.execute_located Locating.execute_page
  refine ⟨_, u, i, line, Locating.execute_page, failsAt, here, place, ?_⟩
  have given : Locating.failure.location? = some ⟨"p", 1⟩ := rfl
  obtain ⟨id, line⟩ := Location.mk.inj (Option.some.inj (place.symm.trans given))
  exact Prod.ext id line

end Haml
