import Haml.Proofs.Inlined
/-! Failures inside partials: on the way out through the renders around it a failure keeps its place
and its message, and all but a filter that is not available also what it is. -/

namespace Haml

open Value Renderer

theorem Context.mirroring_eq : Context.Mirroring 0 fun _ c d => c = d where
  bindings := by
    rintro m c _ rfl
    rw [← deepenBindings_eq_map, deepenBindings_zero]
  bind := by
    rintro m c _ rfl name v
    rw [Value.deepen_zero]
  assign := by
    rintro m c _ rfl name v
    rw [Value.deepen_zero]
  pushScope := by
    rintro m c _ rfl
    rfl
  popScope := by
    rintro m c _ rfl
    rfl

namespace Renderer

/-- Answers that are the same, but for calls that fail as one failure. -/
def Spoils (e : Error) (a b : Calling) : Prop :=
  ∀ r args, b r args = a r args ∨ ∃ fault : Fault, fault.error = e ∧ b r args = .error fault

variable {e : Error} {a b : Calling}

theorem Spoils.follows (spoils : Spoils e a b) :
    Expr.CallsFollow 0 (fun fault => fault.error = e) a b := by
  intro r args
  have same : Value.deepen 0 = id := funext Value.deepen_zero
  rw [deepen_zero, same, List.map_id]
  rcases spoils r args with same | ⟨fault, failing, failed⟩
  · exact .of_eq (same.trans (id_map _).symm)
  · rw [failed]
    exact .fails _ failing

/-- A run in which some calls fail as one located failure ends as before, or with that failure. -/
theorem Spoils.run (spoils : Spoils e a b) {place : Location} (located : e.location? = some place)
    (t : Template) (c : Context) :
    (t.run (c.dialect.evaluatorCalling b) c).1 = (t.run (c.dialect.evaluatorCalling a) c).1 ∨
      (t.run (c.dialect.evaluatorCalling b) c).1 = .error e := by
  have mirrors := c.dialect.evaluatorCalling_mirrors (F := (· = e)) Context.mirroring_eq
    spoils.follows
  have closed : ∀ error, error = e → ∃ place, error.location? = some place := by
    rintro _ rfl
    exact ⟨place, located⟩
  have ran := t.run_mirrored mirrors closed (m := 0) (rfl : c = c)
  generalize (t.run (c.dialect.evaluatorCalling a) c).1 = x at ran ⊢
  generalize (t.run (c.dialect.evaluatorCalling b) c).1 = y at ran ⊢
  cases ran with
  | same => exact .inl (id_map' x)
  | fails failing => exact .inr (congrArg Except.error failing)

theorem call_spoils {f g : Template → Context → Except Error String}
    (renders : ∀ t c, g t c = f t c ∨ g t c = .error e) (r : Renderer Value) (args : List Value) :
    r.call g args = r.call f args ∨ r.call g args = .error (.inPartial e) := by
  unfold call
  cases given : arguments args with
  | error fault => exact .inl rfl
  | ok request =>
      obtain ⟨name, locals⟩ := request
      cases found : r.partials.find? name with
      | none => simp only [found, bind, Except.bind, true_or]
      | some t =>
          by_cases deep : maxDepth ≤ r.depth
          · simp only [found, deep, bind, Except.bind, if_true]
            exact .inl rfl
          · cases read : localsOf locals with
            | error fault => simp only [found, deep, read, bind, Except.bind, if_false, true_or]
            | ok entries =>
                simp only [found, deep, read, bind, Except.bind, if_false]
                rcases renders t (r.context entries) with same | failed
                · rw [same]
                  exact .inl rfl
                · rw [failed]
                  exact .inr rfl

theorem Spoils.callInside (spoils : Spoils e a b) {place : Location}
    (located : e.location? = some place) (passes : (Fault.inPartial e).error = e) (n : Nat) :
    Spoils e (callInside a n) (callInside b n) := by
  -- The induction is on the renders around: each passes the failure on.
  induction n with
  | zero => exact spoils
  | succ n ih =>
      intro r args
      rcases call_spoils (fun t c => ih.run located t c) r args with same | failed
      · exact .inl same
      · exact .inr ⟨_, passes, failed⟩

end Renderer

namespace Fault

/-- What a failure inside a partial becomes outside is passed on as it is from there. -/
theorem error_inPartial_error (e : Error) :
    (inPartial (inPartial e).error).error = (inPartial e).error := by
  cases e <;> rfl

theorem location?_error_inPartial (e : Error) : (inPartial e).error.location? = e.location? := by
  cases e <;> rfl

/-- A located failure comes out of a partial as it is unless a filter is not available. -/
theorem error_inPartial_eq_iff {e : Error} {place : Location} (located : e.location? = some place) :
    (inPartial e).error = e ↔
      ∀ filter required, e ≠ .filterUnavailable filter required (some place) := by
  cases e with
  | filterUnavailable filter required location =>
      cases located
      refine ⟨fun same => (nomatch same), fun other => absurd rfl (other filter required)⟩
  | evaluation location message => exact ⟨fun _ _ _ => nofun, fun _ => rfl⟩
  | missingPartial name location => exact ⟨fun _ _ _ => nofun, fun _ => rfl⟩
  | _ => cases located

end Fault

namespace Template

def answersInside (n : Nat) : Calling :=
  callInside (answerBy tooDeep) (Dialect.maxNested - n)

/-- Whether a render makes a call inside `n` renders: with another answer to it, it would end
otherwise. -/
def Makes (t : Template) (n : Nat) (c : Context) (r : Renderer Value) (args : List Value) : Prop :=
  ∃ other : Calling,
    (∀ r' args', (r', args') ≠ (r, args) → other r' args' = answersInside n r' args') ∧
      (t.runInside other n c).1 ≠ t.render c

theorem render_eq_runInside (t : Template) (c : Context) {n : Nat} (le : n ≤ Dialect.maxNested) :
    t.render c = (t.runInside (answersInside n) n c).1 := by
  have evaluator : c.evaluator =
      c.dialect.evaluatorCalling (callInside (answerBy tooDeep) Dialect.maxNested) :=
    Dialect.evaluatorWithin_eq Dialect.maxNested c.dialect
  rw [render, execute, runInside, answersInside, callInside_add, Nat.sub_add_cancel le, evaluator]

section

variable {p : Template} {n : Nat} {r : Renderer Value} {args : List Value} {name : String}
  {locals : Option Value} {entries : List (String × Value)} {e : Error}
  (less : n < Dialect.maxNested) (given : arguments args = .ok (name, locals))
  (found : r.partials.find? name = some p) (shallow : r.depth < maxDepth)
  (read : localsOf locals = .ok entries)
  (failed : (p.run (r.dialect.evaluatorWithin (Dialect.maxNested - (n + 1)))
    (r.context entries)).1 = .error e)

include less given found shallow read failed

theorem answersInside_of_failing : answersInside n r args = .error (.inPartial e) := by
  have inner : answersInside n = answerBy fun t c =>
      (t.run (c.dialect.evaluatorWithin (Dialect.maxNested - (n + 1))) c).1 := by
    have levels : Dialect.maxNested - n = Dialect.maxNested - (n + 1) + 1 := by omega
    rw [answersInside, levels]
    simp only [Dialect.evaluatorWithin_eq]
    rfl
  have dialect : (r.context entries).dialect = r.dialect :=
    congrArg Context.dialect (context_eq r entries)
  rw [inner]
  refine (call_of_found given found shallow read _).trans ?_
  rw [dialect, failed]
  rfl

/-- A failure inside a partial ends the whole render, however deep the partial is rendered, with the
message and the place it has in the partial; and as the same failure, unless a filter is not
available. -/
theorem render_of_failing_partial {t : Template} {c : Context} {place : Location}
    (makes : t.Makes n c r args) (located : e.location? = some place) :
    ∃ failure, t.render c = .error failure ∧ failure.message = e.message ∧
      failure.location? = some place ∧
      (failure = e ↔ ∀ filter required, e ≠ .filterUnavailable filter required (some place)) ∧
      ∀ filter required, e = .filterUnavailable filter required (some place) →
        failure = .evaluation (some place) e.message := by
  obtain ⟨other, elsewhere, differs⟩ := makes
  have answered := answersInside_of_failing less given found shallow read failed
  have spoils : Spoils (Fault.inPartial e).error other (answersInside n) := by
    intro r' args'
    by_cases same : (r', args') = (r, args)
    · cases same
      exact .inr ⟨_, rfl, answered⟩
    · exact .inl (elsewhere r' args' same).symm
  have passed := (Fault.location?_error_inPartial e).trans located
  have ended : t.render c = .error (Fault.inPartial e).error := by
    have around := spoils.callInside passed (Fault.error_inPartial_error e) n
    rw [t.render_eq_runInside c less.le] at differs ⊢
    exact (around.run passed t c).resolve_left fun same => differs same.symm
  refine ⟨_, ended, Fault.message_error_inPartial e, passed, Fault.error_inPartial_eq_iff located, ?_⟩
  rintro filter required rfl
  rfl

end

end Template

/-! Pages of one line that renders a partial, whose filter fails. -/

namespace Failing

def shownLine (v : Value) : String :=
  String.ofList (Buffer.empty.lines 0 (Render.written false v
    ((Text.dropSuffix? ['\n'] v.shown.toList).getD v.shown.toList))).text

theorem run_output {t : Template} {code : String}
    (instructions : t.instructions = [.output 0 code false 1]) (e : Evaluator) (c : Context) :
    (t.run e c).1 = ((e.evaluate code c).map shownLine).mapError fun failure =>
      failure.located ⟨t.id, 1⟩ := by
  cases value : e.evaluate code c <;>
    simp only [Template.run, instructions, Render.steps, Render.step, Render.write, Render.output,
      value, bind, Except.bind, Render.writeWith] <;> rfl

theorem evaluate_call {p : Template} {c : Context} {extra : List Function} {code name : String}
    (read : Expr.parse code = .ok (.renderCall name none)) (dialect : c.dialect = .expressions extra)
    (free : c.visible.contains "render" = false) (found : c.partials.find? name = some p)
    (call : Calling) : (c.dialect.evaluatorCalling call).evaluate code c =
      (call c.renderer [.ofString name]).mapError Fault.error := by
  have bound := Context.lookup?_render extra call free found
  have called : Expr.eval ⟨extra, c.bindings, call⟩ (.renderCall name none) =
      call c.renderer [.ofString name] := Expr.eval_renderCall bound name
  rw [dialect, Dialect.evaluate_calling, read, ← called]
  rfl

/-- A page that renders a partial comes to what the call of the partial is answered with. -/
theorem runInside_call {t p : Template} {c : Context} {extra : List Function} {code name : String}
    (instructions : t.instructions = [.output 0 code false 1])
    (read : Expr.parse code = .ok (.renderCall name none)) (dialect : c.dialect = .expressions extra)
    (free : c.visible.contains "render" = false) (found : c.partials.find? name = some p)
    (call : Calling) (n : Nat) :
    (t.runInside call n c).1 = (((callInside call n c.renderer [.ofString name]).mapError
      Fault.error).map shownLine).mapError fun failure => failure.located ⟨t.id, 1⟩ := by
  rw [Template.runInside, run_output instructions, evaluate_call read dialect free found]

def part (error : FilterError) : Template :=
  ⟨"p", [.filter 0 "textile" (fun _ => .error error) "x" 1], Options.standard.renderSettings⟩

def calling (id code : String) : Template :=
  ⟨id, [.output 0 code false 1], Options.standard.renderSettings⟩

def context (error : FilterError) : Context :=
  ((Context.new (.expressions [])).addPartial "p" (part error)).addPartial "q"
    (calling "q" "render('p')")

def inside (error : FilterError) : Context := (context error).renderer.context []

theorem parse_call : Expr.parse "render('q')" = .ok (.renderCall "q" none) :=
  Inlined.eq_of_isCall (by decide +kernel)

variable (error : FilterError)

theorem runInside_answered {call : Calling} {s : String}
    (answered : call (inside error).renderer [.ofString "p"] = .ok (.text s true)) :
    ((calling "haml" "render('q')").runInside call 1 (context error)).1 =
      .ok (shownLine (.text (shownLine (.text s true)) true)) := by
  have middle : ((calling "q" "render('p')").runInside call 0 (inside error)).1 =
      .ok (shownLine (.text s true)) := by
    have known : (inside error).partials.find? "p" = some (part error) := rfl
    rw [runInside_call rfl Inlined.parse_call rfl rfl known, callInside, answered]
    rfl
  have known : (context error).partials.find? "q" = some (calling "q" "render('p')") := rfl
  have called : callInside call 1 (context error).renderer [.ofString "q"] =
      .ok (.text (shownLine (.text s true)) true) := by
    have given : arguments [.ofString "q"] = .ok ("q", none) := rfl
    have shallow : (context error).renderer.depth < maxDepth := Nat.zero_lt_succ 15
    have inner : callInside call 1 = answerBy fun t c =>
        (t.run (c.dialect.evaluatorCalling call) c).1 := rfl
    rw [inner]
    refine (call_of_found given known shallow rfl _).trans ?_
    exact congrArg (fun ended : Except Error String =>
      (ended.mapError Fault.inPartial).map (Value.text · true)) middle
  rw [runInside_call rfl parse_call rfl rfl known, called]
  rfl

open Classical in
theorem makes_call : (calling "haml" "render('q')").Makes 1 (context error) (inside error).renderer
    [.ofString "p"] := by
  let answering (s : String) : Calling := fun r args =>
    if (r, args) = ((inside error).renderer, [.ofString "p"]) then .ok (.text s true)
    else Template.answersInside 1 r args
  -- Two answers that end in different pages cannot both end as the render does.
  have answered (s : String) : answering s (inside error).renderer [.ofString "p"] =
      .ok (.text s true) := if_pos rfl
  have ends (s : String) := runInside_answered error (answered s)
  have elsewhere (s : String) : ∀ r args, (r, args) ≠ ((inside error).renderer, [.ofString "p"]) →
      answering s r args = Template.answersInside 1 r args := fun r args other => if_neg other
  by_cases same : ((calling "haml" "render('q')").runInside (answering "a") 1 (context error)).1 =
      (calling "haml" "render('q')").render (context error)
  · refine ⟨answering "b", elsewhere "b", fun also => ?_⟩
    have equal := (ends "a").symm.trans (same.trans (also.symm.trans (ends "b")))
    exact absurd (Except.ok.inj equal) (by decide)
  · exact ⟨answering "a", elsewhere "a", same⟩

theorem run_part (e : Evaluator) (c : Context) : ((part error).run e c).1 =
    .error ((Render.filterError "textile" error).located ⟨"p", 1⟩) := by
  rfl

theorem compile_page : Template.compile "= render('p')" Options.standard =
    .ok (calling "haml" "render('p')") :=
  HandedOn.eq_of_isOutput (by decide +kernel)

def options : Options :=
  { Options.standard with
    templateId := "p", filters := [("textile", Filter.unavailable "redcloth")] }

def isFilter (name text : String) : Except Error Forest → Bool
  | .ok [⟨kind, 1, []⟩] => kind == .filter name text
  | _ => false

theorem compile_part :
    Template.compile ":textile\n  x" options = .ok (part (.missingDependency "redcloth")) := by
  have read : isFilter "textile" "x" (Document.read options.indentUnit ":textile\n  x") = true := by
    decide +kernel
  unfold isFilter at read
  split at read
  · next kind document =>
      rw [Template.compile, document, beq_iff_eq.mp read]
      rfl
  · cases read

end Failing

/-- A filter that fails for its text, two renders deep. -/
theorem Template.render_of_failing_partial_nested :
    ∃ failure, (Failing.calling "haml" "render('q')").render (Failing.context (.failed "bad")) =
        .error failure ∧
      failure.message = "filter `textile` failed: bad" ∧
      failure.location? = some ⟨"p", 1⟩ := by
  let r := (Failing.inside (.failed "bad")).renderer
  have given : arguments [.ofString "p"] = .ok ("p", none) := rfl
  have known : r.partials.find? "p" = some (Failing.part (.failed "bad")) := rfl
  have shallow : r.depth < maxDepth := by decide
  obtain ⟨failure, ended, message, place, -, -⟩ := Template.render_of_failing_partial (r := r)
    (by decide) given known shallow rfl (Failing.run_part (.failed "bad") _ _)
    (Failing.makes_call (.failed "bad")) rfl
  exact ⟨failure, ended, message, place⟩

/-- A filter that is not available fails as such in its partial, and as an evaluation in the page
that renders the partial. -/
theorem Template.unavailable_filter_lost :
    ∃ page part, Template.compile "= render('p')" Options.standard = .ok page ∧
      Template.compile ":textile\n  x" { Options.standard with
        templateId := "p", filters := [("textile", Filter.unavailable "redcloth")] } = .ok part ∧
      let c := (Context.new (.expressions [])).addPartial "p" part
      part.render (c.renderer.context []) =
          .error (.filterUnavailable "textile" "redcloth" (some ⟨"p", 1⟩)) ∧
        page.render c = .error (.evaluation (some ⟨"p", 1⟩)
          "can't run `textile` filter; required `redcloth` not found") := by
  refine ⟨_, _, Failing.compile_page, Failing.compile_part, Failing.run_part _ _ _, ?_⟩
  let part := Failing.part (.missingDependency "redcloth")
  let c := (Context.new (.expressions [])).addPartial "p" part
  have known : c.partials.find? "p" = some part := rfl
  have answered : Template.answersInside 0 c.renderer [.ofString "p"] = _ :=
    Template.answersInside_of_failing (by decide) rfl known (by decide) rfl
      (Failing.run_part (.missingDependency "redcloth") _ _)
  have called := Failing.runInside_call (t := Failing.calling "haml" "render('p')") rfl
    Inlined.parse_call rfl rfl known (Template.answersInside 0) 0
  rw [Template.render_eq_runInside _ _ (Nat.zero_le _), called, callInside, answered]
  rfl

end Haml
