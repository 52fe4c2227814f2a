import Haml.Proofs.Located.Calls
import Haml.Proofs.Located.Lines
import Haml.Proofs.Passing
/-! Points: where a run of instructions fails first, and whether a call is what fails there. -/

namespace Haml

namespace Script

variable {σ : Type} {body : Context → σ → Except Error Unit × Context × σ} {s : Script} {a b : σ}
  {c : Context}

/-- Whether a script comes to a run of its block that fails, with `c` from the state `b`, those before
it having succeeded. -/
inductive Breaks (body : Context → σ → Except Error Unit × Context × σ) :
    Script → σ → Context → σ → Prop
  | here {c : Context} {resume : Except Error Unit → Context → Script} {a : σ} {failure : Error} :
      (body c a).1 = .error failure → Breaks body (.block c resume) a c a
  | later {c d : Context} {resume : Except Error Unit → Context → Script} {a b : σ} :
      (body c a).1 = .ok () → Breaks body (resume (.ok ()) (body c a).2.1) (body c a).2.2 d b →
      Breaks body (.block c resume) a d b

theorem Breaks.fails (breaks : Breaks body s a c b) : ∃ failure, (body c b).1 = .error failure := by
  induction breaks with
  | here failed => exact ⟨_, failed⟩
  | later _ _ ih => exact ih

theorem Breaks.unique {d : Context} {b' : σ} (breaks : Breaks body s a c b)
    (other : Breaks body s a d b') : d = c ∧ b' = b := by
  induction breaks with
  | here failed =>
      cases other with
      | here _ => exact ⟨rfl, rfl⟩
      | later done _ =>
          rw [failed] at done
          cases done
  | later done _ ih =>
      cases other with
      | here failed =>
          rw [done] at failed
          cases failed
      | later _ rest => exact ih rest

theorem run_block (c : Context) (resume : Except Error Unit → Context → Script) (a : σ) :
    (Script.block c resume).run body a =
      (resume (body c a).1 (body c a).2.1).run body (body c a).2.2 := rfl

/-- A script that passes failures on ends with that of its block. -/
theorem Passes.run_of_breaks (passes : s.Passes) (breaks : Breaks body s a c b) {failure : Error}
    (failed : (body c b).1 = .error failure) : (s.run body a).1 = .error failure := by
  induction breaks with
  | @here c resume a _ _ =>
      cases passes with
      | block fails _ =>
          obtain ⟨last, ends⟩ := fails failure (body c a).2.1
          rw [run_block, failed, ends]
          rfl
  | @later c d resume a b done _ ih =>
      cases passes with
      | block _ goes =>
          rw [run_block, done]
          exact ih (goes _) failed

theorem FailsAs.run {K : Error → Prop} (own : s.FailsAs K)
    (whole : ∀ c b, ¬ Breaks body s a c b) : Fails K (s.run body a).1 := by
  induction own generalizing a with
  | done own => exact own
  | @block c resume _ ih =>
      rw [run_block]
      cases ended : (body c a).1 with
      | error failure => exact absurd (.here ended) (whole c a)
      | ok done => exact ih _ fun d b breaks => whole d b (.later ended breaks)

end Script

/-- A place in a run: an instruction, and what the run has come to when it reaches it. -/
structure Render.Point where
  instruction : Instruction
  previous : Branch
  progress : Progress

namespace Render

def Point.outcome (e : Evaluator) (id : String) (settings : RenderSettings) (s : Point) :
    Except Error Branch :=
  (step e id settings s.instruction s.previous s.progress).1

inductive Point.Breaks (e : Evaluator) (id : String) (settings : RenderSettings) :
    Point → List Instruction → Progress → Prop
  | script {code : String} {line : Nat} {body : List Instruction} {previous : Branch}
      {p q : Progress} :
      Script.Breaks (block e id settings body) (e.execute code p.context previous !body.isEmpty)
        p.buffer q.context q.buffer →
      Breaks e id settings ⟨.script code line body, previous, p⟩ body q

/-- Whether a run of instructions fails at a point: the steps before it have succeeded, and what
fails in its own step is not the block. -/
inductive FailsAt (e : Evaluator) (id : String) (settings : RenderSettings) :
    List Instruction → Branch → Progress → Point → Prop
  | here {i : Instruction} {rest : List Instruction} {previous : Branch} {p : Progress}
      {failure : Error} :
      (step e id settings i previous p).1 = .error failure →
      (∀ body q, ¬ Point.Breaks e id settings ⟨i, previous, p⟩ body q) →
      FailsAt e id settings (i :: rest) previous p ⟨i, previous, p⟩
  | inside {i : Instruction} {rest body : List Instruction} {previous : Branch} {p q : Progress}
      {s : Point} :
      Point.Breaks e id settings ⟨i, previous, p⟩ body q → FailsAt e id settings body .idle q s →
      FailsAt e id settings (i :: rest) previous p s
  | later {i : Instruction} {rest : List Instruction} {previous branch : Branch} {p q : Progress}
      {s : Point} :
      step e id settings i previous p = (.ok branch, q) → FailsAt e id settings rest branch q s →
      FailsAt e id settings (i :: rest) previous p s

variable {e : Evaluator} {id : String} {settings : RenderSettings}

section

variable {s : Point} {body : List Instruction} {q : Progress}

theorem Point.Breaks.unique {other : List Instruction} {r : Progress}
    (breaks : s.Breaks e id settings body q) (also : s.Breaks e id settings other r) :
    other = body ∧ r = q := by
  cases breaks with
  | script first =>
      cases also with
      | script second =>
          obtain ⟨context, buffer⟩ := first.unique second
          cases r
          cases q
          cases context
          cases buffer
          exact ⟨rfl, rfl⟩

theorem Point.Breaks.fails (breaks : s.Breaks e id settings body q) :
    ∃ failure, (steps e id settings body .idle q).1 = .error failure := by
  cases breaks with
  | script breaks => exact breaks.fails

theorem Point.Breaks.outcome (passes : e.PassesFailures) (breaks : s.Breaks e id settings body q)
    {failure : Error} (failed : (steps e id settings body .idle q).1 = .error failure) :
    s.outcome e id settings = .error failure := by
  cases breaks with
  | script breaks =>
      rw [Point.outcome, step_script]
      exact (passes _ _ _ _).run_of_breaks breaks failed

end

mutual

theorem exists_failsAt_inside (i : Instruction) {previous : Branch} {p q : Progress}
    {body : List Instruction} (breaks : Point.Breaks e id settings ⟨i, previous, p⟩ body q) :
    ∃ s, FailsAt e id settings body .idle q s := by
  match i with
  | .script code line inner =>
      obtain ⟨failure, failed⟩ := breaks.fails
      have same : body = inner := by
        cases breaks
        rfl
      rw [same] at failed ⊢
      exact exists_failsAt inner .idle q failed
  | .text .. | .interpolated .. | .output .. | .element .. | .openTag .. | .closeTag ..
  | .filter .. => cases breaks

/-- A run that fails does so at some point. -/
theorem exists_failsAt (is : List Instruction) (previous : Branch) (p : Progress) {failure : Error}
    (failed : (steps e id settings is previous p).1 = .error failure) :
    ∃ s, FailsAt e id settings is previous p s := by
  match is with
  | [] => cases failed
  | i :: rest =>
      by_cases whole : ∃ body q, Point.Breaks e id settings ⟨i, previous, p⟩ body q
      · obtain ⟨body, q, breaks⟩ := whole
        obtain ⟨s, inside⟩ := exists_failsAt_inside i breaks
        exact ⟨s, .inside breaks inside⟩
      · cases ran : step e id settings i previous p with
        | mk outcome q =>
            cases outcome with
            | error reason =>
                refine ⟨_, .here (congrArg Prod.fst ran) fun body q breaks => ?_⟩
                exact whole ⟨body, q, breaks⟩
            | ok branch =>
                rw [steps, ran] at failed
                obtain ⟨s, later⟩ := exists_failsAt rest branch q failed
                exact ⟨s, .later ran later⟩

end

theorem FailsAt.unique (passes : e.PassesFailures) {is : List Instruction} {previous : Branch}
    {p : Progress} {s other : Point} (failsAt : FailsAt e id settings is previous p s)
    (also : FailsAt e id settings is previous p other) : other = s := by
  induction failsAt generalizing other with
  | here failed whole =>
      cases also with
      | here _ _ => rfl
      | inside breaks _ => exact absurd breaks (whole _ _)
      | later done _ =>
          rw [done] at failed
          cases failed
  | inside breaks _ ih =>
      cases also with
      | here _ whole => exact absurd breaks (whole _ _)
      | inside breaks' inside =>
          obtain ⟨rfl, rfl⟩ := breaks.unique breaks'
          exact ih inside
      | later done _ =>
          obtain ⟨failure, broken⟩ := breaks.fails
          have failed := breaks.outcome passes broken
          rw [Point.outcome, done] at failed
          cases failed
  | later done _ ih =>
      cases also with
      | here failed _ =>
          rw [done] at failed
          cases failed
      | inside breaks _ =>
          obtain ⟨failure, broken⟩ := breaks.fails
          have failed := breaks.outcome passes broken
          rw [Point.outcome, done] at failed
          cases failed
      | later done' later =>
          rw [done] at done'
          cases done'
          exact ih later

theorem FailsAt.whole {is : List Instruction} {previous : Branch} {p : Progress} {s : Point}
    (failsAt : FailsAt e id settings is previous p s) :
    ∀ body q, ¬ s.Breaks e id settings body q := by
  induction failsAt with
  | here _ whole => exact whole
  | inside _ _ ih => exact ih
  | later _ _ ih => exact ih

theorem FailsAt.among {is : List Instruction} {previous : Branch} {p : Progress} {s : Point}
    (failsAt : FailsAt e id settings is previous p s) : s.instruction.Among is := by
  induction failsAt with
  | here _ _ => exact .here (List.mem_cons_self ..)
  | inside breaks _ ih =>
      cases breaks with
      | script _ => exact .inside (List.mem_cons_self ..) ih
  | later _ _ ih =>
      cases ih with
      | here member => exact .here (List.mem_cons_of_mem _ member)
      | inside member nested => exact .inside (List.mem_cons_of_mem _ member) nested

theorem line_of_step_fails {i : Instruction} {previous : Branch} {p : Progress} {failure : Error}
    (failed : (step e id settings i previous p).1 = .error failure) :
    ∃ line, i.line? = some line := by
  cases i with
  | text depth text =>
      rw [step_eq_write (by intro _ _ _ same; cases same)] at failed
      cases failed
  | closeTag depth name trimInner trimOuter =>
      rw [step_eq_write (by intro _ _ _ same; cases same)] at failed
      cases failed
  | _ => exact ⟨_, rfl⟩

/-- A run ends with the failure of the step it fails at, if that has its place: the lines of the
scripts around leave it as it is. -/
theorem FailsAt.steps (passes : e.PassesFailures) {is : List Instruction} {previous : Branch}
    {p : Progress} {s : Point} (failsAt : FailsAt e id settings is previous p s) :
    ∃ failure, s.outcome e id settings = .error failure ∧
      ∀ place, (locate id s.instruction failure).location? = some place →
        (steps e id settings is previous p).1 = .error (locate id s.instruction failure) := by
  induction failsAt with
  | @here i rest previous p failure failed whole =>
      refine ⟨failure, failed, fun place _ => ?_⟩
      rw [Render.steps]
      generalize step e id settings i previous p = ran at failed
      obtain ⟨outcome, q⟩ := ran
      cases failed
      rfl
  | @inside i rest body previous p q s breaks _ ih =>
      obtain ⟨failure, failed, ends⟩ := ih
      refine ⟨failure, failed, fun place located => ?_⟩
      have around := breaks.outcome passes (ends place located)
      rw [Render.steps]
      rw [Point.outcome] at around
      generalize step e id settings i previous p = ran at around
      obtain ⟨outcome, q⟩ := ran
      cases around
      have kept : locate id i (locate id s.instruction failure) = locate id s.instruction failure := by
        rw [locate]
        split
        · exact Error.located_of_location located _
        · rfl
      exact congrArg Except.error kept
  | later done _ ih =>
      obtain ⟨failure, failed, ends⟩ := ih
      refine ⟨failure, failed, fun place located => ?_⟩
      rw [Render.steps, done]
      exact ends place located

/-- Whether the step at a point fails because a call does: with whatever fault that call fails, and
however other failing calls are answered, the step fails with nothing else. -/
def Point.Blames (d : Dialect) (call : Calling) (id : String) (settings : RenderSettings) (s : Point)
    (r : Renderer Value) (args : List Value) : Prop :=
  (∃ fault, call r args = .error fault) ∧
    ∀ other fault, call.Keeps other → other r args = .error fault →
      s.outcome (d.evaluatorCalling other) id settings = .error fault.error

section

variable {d : Dialect} {call : Calling} {s : Point}

theorem Point.unplaced_or_blames_of_plain {i : Instruction} {previous : Branch} {p : Progress}
    {failure : Error} (plain : ∀ code line body, i ≠ .script code line body)
    (failed : Point.outcome (d.evaluatorCalling call) id settings ⟨i, previous, p⟩ =
      .error failure) :
    failure.Unplaced ∨ ∃ r args, Point.Blames d call id settings ⟨i, previous, p⟩ r args := by
  have same (other : Calling) : Point.outcome (d.evaluatorCalling other) id settings
      ⟨i, previous, p⟩ = (write (d.evaluatorCalling other) settings p.context i p.buffer).1.map
        fun _ => .idle := by
    rw [Point.outcome, step_eq_write plain]
  have settled : Settled call Error.Unplaced Fault.error fun other =>
      (write (d.evaluatorCalling other) settings p.context i p.buffer).1 :=
    write_settled d p.context settings i p.buffer
  rw [same] at failed
  cases settled with
  | ok done wrote =>
      rw [wrote call (.refl call)] at failed
      cases failed
  | own reason own wrote =>
      rw [wrote call (.refl call)] at failed
      cases failed
      exact .inl own
  | called r args fault answered wrote =>
      refine .inr ⟨r, args, ⟨fault, answered⟩, fun other fault' keeps failed' => ?_⟩
      rw [same, wrote other fault' keeps failed']
      rfl

theorem Point.unplaced_or_blames_of_script {code : String} {line : Nat} {body : List Instruction}
    {previous : Branch} {p : Progress} {failure : Error}
    (failed : Point.outcome (d.evaluatorCalling call) id settings
      ⟨.script code line body, previous, p⟩ = .error failure)
    (whole : ∀ inner q, ¬ Point.Breaks (d.evaluatorCalling call) id settings
      ⟨.script code line body, previous, p⟩ inner q) :
    failure.Unplaced ∨
      ∃ r args, Point.Blames d call id settings ⟨.script code line body, previous, p⟩ r args := by
  have settled : Script.Settled call p.context fun other =>
      (d.evaluatorCalling other).execute code p.context previous !body.isEmpty :=
    d.execute_settled code p.context previous !body.isEmpty
  cases settled with
  | own own =>
      rw [Point.outcome, step_script] at failed
      refine .inl (own.run (fun c b breaks => ?_) failure failed)
      exact whole body ⟨c, b⟩ (.script breaks)
  | called r args fault answered ran =>
      refine .inr ⟨r, args, ⟨fault, answered⟩, fun other fault' keeps failed' => ?_⟩
      rw [Point.outcome, step_script, ran other fault' keeps failed']
      rfl

/-- What fails in the step at a point is the instruction's own, or else a call. -/
theorem Point.unplaced_or_blames {failure : Error}
    (failed : s.outcome (d.evaluatorCalling call) id settings = .error failure)
    (whole : ∀ body q, ¬ s.Breaks (d.evaluatorCalling call) id settings body q) :
    failure.Unplaced ∨ ∃ r args, s.Blames d call id settings r args := by
  obtain ⟨i, previous, p⟩ := s
  cases i with
  | script code line body => exact unplaced_or_blames_of_script failed whole
  | _ => exact unplaced_or_blames_of_plain (by intro _ _ _ same; cases same) failed

open Classical in
/-- No two calls are blamed: with different faults, the step could not fail with both. -/
theorem Point.Blames.unique {r r' : Renderer Value} {args args' : List Value}
    (blames : s.Blames d call id settings r args) (also : s.Blames d call id settings r' args') :
    r' = r ∧ args' = args := by
  obtain ⟨⟨fault, failed⟩, ends⟩ := blames
  obtain ⟨⟨fault', failed'⟩, ends'⟩ := also
  refine Classical.byContradiction fun apart => ?_
  have different : (r', args') ≠ (r, args) := fun same => apart (Prod.mk.inj same)
  let other : Calling := fun a as =>
    if (a, as) = (r, args) then .error (.raised "a")
    else if (a, as) = (r', args') then .error (.raised "b")
    else call a as
  have keeps : call.Keeps other := by
    intro a as v given
    have first : (a, as) ≠ (r, args) := by
      rintro same
      cases same
      rw [failed] at given
      cases given
    have second : (a, as) ≠ (r', args') := by
      rintro same
      cases same
      rw [failed'] at given
      cases given
    exact (if_neg first).trans ((if_neg second).trans given)
  have one := ends other (.raised "a") keeps (if_pos rfl)
  have two := ends' other (.raised "b") keeps ((if_neg different).trans (if_pos rfl))
  have same : "a" = "b" := congrArg Error.message (Except.error.inj (one.symm.trans two))
  exact absurd same (by decide)

end

end Render

end Haml
