import Haml.Proofs.Emission
import Haml.Proofs.Passing
import Haml.Proofs.Redrawn
/-! Balance: the tags that a render writes. Compiled instructions open and close tags in pairs, so a
run leaves a tag open only where a failure has stopped a block and the evaluator went on. -/

namespace Haml

structure TagEnds where
  depth : Nat
  name : String
  trimInner : Bool
  trimOuter : Bool
  deriving DecidableEq, Repr

inductive TagMark where
  | opened (ends : TagEnds)
  | closed (ends : TagEnds)
  deriving DecidableEq, Repr

namespace TagMark

/-- The tags that are open after some marks, innermost first, given those open before them; none if
a closing tag is not that of the latest open one. -/
def unclosed : List TagEnds → List TagMark → Option (List TagEnds)
  | stack, [] => some stack
  | stack, .opened ends :: rest => unclosed (ends :: stack) rest
  | [], .closed _ :: _ => none
  | latest :: stack, .closed ends :: rest => if ends = latest then unclosed stack rest else none

/-- Whether each closing tag is that of the latest open tag, and none is left open. -/
def WellNested (marks : List TagMark) : Prop := unclosed [] marks = some []

def openings (marks : List TagMark) : Nat :=
  marks.countP fun
    | opened _ => true
    | closed _ => false

def closings (marks : List TagMark) : Nat :=
  marks.countP fun
    | opened _ => false
    | closed _ => true

@[simp] theorem openings_append (first second : List TagMark) :
    openings (first ++ second) = openings first + openings second := List.countP_append

@[simp] theorem closings_append (first second : List TagMark) :
    closings (first ++ second) = closings first + closings second := List.countP_append

@[simp] theorem openings_opened (ends : TagEnds) (rest : List TagMark) :
    openings (.opened ends :: rest) = openings rest + 1 := by
  simp [openings]

@[simp] theorem closings_opened (ends : TagEnds) (rest : List TagMark) :
    closings (.opened ends :: rest) = closings rest := by
  simp [closings]

@[simp] theorem openings_closed (ends : TagEnds) (rest : List TagMark) :
    openings (.closed ends :: rest) = openings rest := by
  simp [openings]

@[simp] theorem closings_closed (ends : TagEnds) (rest : List TagMark) :
    closings (.closed ends :: rest) = closings rest + 1 := by
  simp [closings]

theorem unclosed_append (stack : List TagEnds) (first second : List TagMark) :
    unclosed stack (first ++ second) = (unclosed stack first).bind (unclosed · second) := by
  induction first generalizing stack with
  | nil => rfl
  | cons mark rest ih =>
      cases mark with
      | opened ends => exact ih (ends :: stack)
      | closed ends =>
          cases stack with
          | nil => rfl
          | cons latest stack =>
              simp only [List.cons_append, unclosed]
              split
              · exact ih stack
              · rfl

theorem unclosed_within {stack left : List TagEnds} {marks : List TagMark}
    (closes : unclosed stack marks = some left) (outer : List TagEnds) :
    unclosed (stack ++ outer) marks = some (left ++ outer) := by
  induction marks generalizing stack with
  | nil =>
      cases closes
      rfl
  | cons mark rest ih =>
      cases mark with
      | opened ends => exact ih closes
      | closed ends =>
          cases stack with
          | nil => cases closes
          | cons latest stack =>
              simp only [unclosed, List.cons_append] at closes ⊢
              split at closes
              · next same =>
                  rw [if_pos same]
                  exact ih closes
              · cases closes

theorem length_unclosed {stack left : List TagEnds} {marks : List TagMark}
    (closes : unclosed stack marks = some left) :
    stack.length + openings marks = left.length + closings marks := by
  induction marks generalizing stack with
  | nil =>
      cases closes
      rfl
  | cons mark rest ih =>
      cases mark with
      | opened ends =>
          have counted := ih closes
          simp at counted ⊢
          omega
      | closed ends =>
          cases stack with
          | nil => cases closes
          | cons latest stack =>
              simp only [unclosed] at closes
              split at closes
              · have counted := ih closes
                simp at counted ⊢
                omega
              · cases closes

namespace WellNested

variable {first second marks : List TagMark}

theorem nil : WellNested [] := rfl

theorem append (one : WellNested first) (other : WellNested second) :
    WellNested (first ++ second) := by
  unfold WellNested at one other ⊢
  rw [unclosed_append, one]
  exact other

theorem enclosed (inside : WellNested marks) (ends : TagEnds) :
    WellNested (.opened ends :: marks ++ [.closed ends]) := by
  have inner : unclosed [ends] marks = some [ends] := unclosed_within inside [ends]
  unfold WellNested
  rw [unclosed_append, unclosed, inner]
  simp [unclosed]

theorem openings_eq (nested : WellNested marks) : openings marks = closings marks := by
  have counted := length_unclosed nested
  simpa using counted

end WellNested

end TagMark

open TagMark

def Instruction.mark? : Instruction → Option TagMark
  | .openTag depth tag _ => some (.opened ⟨depth, tag.name, tag.trimInner, tag.trimOuter⟩)
  | .closeTag depth name trimInner trimOuter => some (.closed ⟨depth, name, trimInner, trimOuter⟩)
  | _ => none

/-- What a run has executed: tags, and within its scripts runs of their blocks. -/
inductive Executed where
  | tag (mark : TagMark)
  | block (completed : Bool) (inside : List Executed)

namespace Executed

mutual

def marks : Executed → List TagMark
  | tag mark => [mark]
  | block _ inside => allMarks inside

def allMarks : List Executed → List TagMark
  | [] => []
  | x :: rest => x.marks ++ allMarks rest

end

mutual

def failures : Executed → List (List Executed)
  | tag _ => []
  | block true inside => allFailures inside
  | block false inside => inside :: allFailures inside

def allFailures : List Executed → List (List Executed)
  | [] => []
  | x :: rest => x.failures ++ allFailures rest

end

variable {first second log : List Executed}

@[simp] theorem allMarks_append (first second : List Executed) :
    allMarks (first ++ second) = allMarks first ++ allMarks second := by
  induction first with
  | nil => rfl
  | cons x rest ih => simp [allMarks, ih]

@[simp] theorem allFailures_append (first second : List Executed) :
    allFailures (first ++ second) = allFailures first ++ allFailures second := by
  induction first with
  | nil => rfl
  | cons x rest ih => simp [allFailures, ih]

theorem allFailures_tags (marks : List TagMark) : allFailures (marks.map tag) = [] := by
  induction marks with
  | nil => rfl
  | cons mark rest ih => exact ih

mutual

/-- What a run to the end of balanced instructions executes. -/
inductive Complete : List Executed → Prop
  | nil : Complete []
  | ran {inside : List Executed} : Complete inside → Complete [.block true inside]
  | failed {inside : List Executed} : Started inside → Complete [.block false inside]
  | enclosed {inside : List Executed} (ends : TagEnds) :
      Complete inside → Complete (.tag (.opened ends) :: inside ++ [.tag (.closed ends)])
  | append {first second : List Executed} :
      Complete first → Complete second → Complete (first ++ second)

inductive Started : List Executed → Prop
  | complete {log : List Executed} : Complete log → Started log
  | opened {log : List Executed} (ends : TagEnds) :
      Started log → Started (.tag (.opened ends) :: log)
  | append {first second : List Executed} :
      Complete first → Started second → Started (first ++ second)

end

def FailuresNested (log : List Executed) : Prop :=
  ∀ inside ∈ allFailures log, WellNested (allMarks inside)

theorem failuresNested_append :
    FailuresNested (first ++ second) ↔ FailuresNested first ∧ FailuresNested second := by
  simp only [FailuresNested, allFailures_append, List.forall_mem_append]

theorem failuresNested_ran {inside : List Executed} :
    FailuresNested [.block true inside] ↔ FailuresNested inside := by
  simp only [FailuresNested, allFailures, failures, List.append_nil]

theorem failuresNested_failed {inside : List Executed} :
    FailuresNested [.block false inside] ↔
      WellNested (allMarks inside) ∧ FailuresNested inside := by
  simp only [FailuresNested, allFailures, failures, List.append_nil, List.forall_mem_cons]

theorem failuresNested_tag (mark : TagMark) (log : List Executed) :
    FailuresNested (.tag mark :: log) ↔ FailuresNested log := by
  simp only [FailuresNested, allFailures, failures, List.nil_append]

mutual

theorem Complete.wellNested :
    {log : List Executed} → Complete log → FailuresNested log → WellNested (allMarks log)
  | _, .nil, _ => .nil
  | _, .ran complete, nested => by
      have inside := complete.wellNested (failuresNested_ran.mp nested)
      simpa [allMarks, marks] using inside
  | _, .failed _, nested => by
      have inside := (failuresNested_failed.mp nested).1
      simpa [allMarks, marks] using inside
  | _, .enclosed ends complete, nested => by
      have outside := (failuresNested_append.mp nested).1
      have inside := complete.wellNested ((failuresNested_tag _ _).mp outside)
      simpa [allMarks, marks] using inside.enclosed ends
  | _, .append first second, nested => by
      have both := failuresNested_append.mp nested
      rw [allMarks_append]
      exact (first.wellNested both.1).append (second.wellNested both.2)

end

mutual

/-- No tag is closed that is not open; where as many are closed as opened, no failed run has left
one open. -/
theorem Complete.counted : {log : List Executed} → Complete log →
    closings (allMarks log) ≤ openings (allMarks log) ∧
      (closings (allMarks log) = openings (allMarks log) → FailuresNested log)
  | _, .nil => ⟨Nat.le_refl _, fun _ => nofun⟩
  | _, .ran complete => by
      have inside := complete.counted
      simpa [allMarks, marks, failuresNested_ran] using inside
  | _, .failed started => by
      have inside := started.counted
      simpa [allMarks, marks, failuresNested_failed] using inside
  | _, .enclosed ends complete => by
      have inside := complete.counted
      have nested : FailuresNested [.tag (.closed ends)] := nofun
      simp only [allMarks_append, failuresNested_append, failuresNested_tag, nested, and_true]
      simp only [allMarks, marks, List.cons_append, List.nil_append, List.append_nil,
        openings_opened, closings_opened, openings_append, closings_append]
      have last : openings [.closed ends] = 0 ∧ closings [.closed ends] = 1 := ⟨rfl, rfl⟩
      rw [last.1, last.2]
      refine ⟨by omega, fun same => inside.2 ?_⟩
      omega
  | _, .append first second => by
      have one := first.counted
      have other := second.counted
      simp only [allMarks_append, openings_append, closings_append, failuresNested_append]
      refine ⟨by omega, fun same => ⟨one.2 ?_, other.2 ?_⟩⟩ <;> omega

theorem Started.counted : {log : List Executed} → Started log →
    closings (allMarks log) ≤ openings (allMarks log) ∧
      (closings (allMarks log) = openings (allMarks log) →
        WellNested (allMarks log) ∧ FailuresNested log)
  | _, .complete complete => by
      have counted := complete.counted
      refine ⟨counted.1, fun same => ?_⟩
      exact ⟨complete.wellNested (counted.2 same), counted.2 same⟩
  | _, .opened ends started => by
      have inside := started.counted
      simp only [allMarks, marks, List.cons_append, List.nil_append, openings_opened,
        closings_opened]
      refine ⟨by omega, fun same => ?_⟩
      omega
  | _, .append first second => by
      have one := first.counted
      have other := second.counted
      simp only [allMarks_append, openings_append, closings_append, failuresNested_append]
      refine ⟨by omega, fun same => ?_⟩
      have firstNested := one.2 (by omega)
      have secondNested := other.2 (by omega)
      have whole := (first.wellNested firstNested).append secondNested.1
      exact ⟨whole, firstNested, secondNested.2⟩

end

/-- The tags of a run to the end are in order exactly if those of each failed run within it are. -/
theorem Complete.wellNested_iff (complete : Complete log) :
    WellNested (allMarks log) ↔ FailuresNested log := by
  constructor
  · intro nested
    exact complete.counted.2 nested.openings_eq.symm
  · exact complete.wellNested

end Executed

namespace Render

section

variable (e : Evaluator) (id : String) (settings : RenderSettings)

mutual

def stepRecorded : Instruction → Branch → Progress → Except Error Branch × Progress × List Executed
  | .script code _ body, previous, p =>
      let script := e.execute code p.context previous !body.isEmpty
      let (outcome, context, buffer, log) := script.run
        (fun context (buffer, log) =>
          let (outcome, p, inside) := stepsRecorded body .idle ⟨context, buffer⟩
          (outcome, p.context, p.buffer, log ++ [.block outcome.isOk inside]))
        (p.buffer, [])
      (outcome, ⟨context, buffer⟩, log)
  | i, _, p =>
      let (outcome, buffer) := write e settings p.context i p.buffer
      let log := if outcome.isOk then i.mark?.toList.map .tag else []
      (outcome.map fun _ => .idle, ⟨p.context, buffer⟩, log)

/-- A run with what it executes. -/
def stepsRecorded :
    List Instruction → Branch → Progress → Except Error Unit × Progress × List Executed
  | [], _, p => (.ok (), p, [])
  | i :: rest, previous, p =>
      match stepRecorded i previous p with
      | (.ok branch, p, log) =>
          let (outcome, p, others) := stepsRecorded rest branch p
          (outcome, p, log ++ others)
      | (.error failure, p, log) => (.error (locate id i failure), p, log)

end

end

section

variable {e : Evaluator} {id : String} {settings : RenderSettings}

theorem stepRecorded_eq_write {i : Instruction} {previous : Branch} {p : Progress}
    (plain : ∀ code line body, i ≠ .script code line body) :
    stepRecorded e id settings i previous p =
      ((step e id settings i previous p).1, (step e id settings i previous p).2,
        if (write e settings p.context i p.buffer).1.isOk then i.mark?.toList.map .tag else []) := by
  rw [step_eq_write plain]
  cases i with
  | script code line body => exact absurd rfl (plain code line body)
  | _ => rw [stepRecorded.eq_def]

def blockRecorded (e : Evaluator) (id : String) (settings : RenderSettings)
    (body : List Instruction) (c : Context) (state : Buffer × List Executed) :
    Except Error Unit × Context × Buffer × List Executed :=
  let ran := stepsRecorded e id settings body .idle ⟨c, state.1⟩
  (ran.1, ran.2.1.context, ran.2.1.buffer, state.2 ++ [.block ran.1.isOk ran.2.2])

theorem stepRecorded_script {code : String} {line : Nat} {body : List Instruction}
    {previous : Branch} {p : Progress} :
    stepRecorded e id settings (.script code line body) previous p =
      let ran := (e.execute code p.context previous !body.isEmpty).run
        (blockRecorded e id settings body) (p.buffer, [])
      (ran.1, ⟨ran.2.1, ran.2.2.1⟩, ran.2.2.2) := by
  rw [stepRecorded]
  rfl

end

end Render

/-- A script does not depend on what its block records. -/
theorem Script.run_recorded {σ τ : Type} {body : Context → σ → Except Error Unit × Context × σ}
    {recorded : Context → σ × τ → Except Error Unit × Context × σ × τ}
    (same : ∀ c a, (recorded c a).1 = (body c a.1).1 ∧ (recorded c a).2.1 = (body c a.1).2.1 ∧
      (recorded c a).2.2.1 = (body c a.1).2.2) (s : Script) (a : σ × τ) :
    (s.run recorded a).1 = (s.run body a.1).1 ∧ (s.run recorded a).2.1 = (s.run body a.1).2.1 ∧
      (s.run recorded a).2.2.1 = (s.run body a.1).2.2 := by
  induction s generalizing a with
  | done outcome c => exact ⟨rfl, rfl, rfl⟩
  | block c resume ih =>
      obtain ⟨outcome, context, state⟩ := same c a
      simp only [Script.run]
      rw [outcome, context, ← state]
      exact ih _ _ _

namespace Render

section

variable (e : Evaluator) (id : String) (settings : RenderSettings)

mutual

theorem stepRecorded_run (i : Instruction) (previous : Branch) (p : Progress) :
    ((stepRecorded e id settings i previous p).1, (stepRecorded e id settings i previous p).2.1) =
      step e id settings i previous p := by
  match i with
  | .script code line body =>
      have same : ∀ c (a : Buffer × List Executed),
          (blockRecorded e id settings body c a).1 = (block e id settings body c a.1).1 ∧
          (blockRecorded e id settings body c a).2.1 = (block e id settings body c a.1).2.1 ∧
          (blockRecorded e id settings body c a).2.2.1 = (block e id settings body c a.1).2.2 := by
        intro c a
        have ran := stepsRecorded_run body .idle ⟨c, a.1⟩
        simp only [block, blockRecorded, ← ran, and_self]
      have whole := Script.run_recorded same (e.execute code p.context previous !body.isEmpty)
        (p.buffer, [])
      rw [stepRecorded_script, step_script]
      simp only [whole]
  | .text .. | .interpolated .. | .output .. | .element .. | .openTag .. | .closeTag ..
  | .filter .. => rw [stepRecorded_eq_write (by intro _ _ _ same; cases same)]

/-- The run that is recorded is the run. -/
theorem stepsRecorded_run (is : List Instruction) (previous : Branch) (p : Progress) :
    ((stepsRecorded e id settings is previous p).1,
      (stepsRecorded e id settings is previous p).2.1) = steps e id settings is previous p := by
  match is with
  | [] => rw [stepsRecorded, steps]
  | i :: rest =>
      rw [stepsRecorded, steps, ← stepRecorded_run i previous p]
      generalize stepRecorded e id settings i previous p = ran
      obtain ⟨outcome, q, log⟩ := ran
      cases outcome with
      | error failure => rfl
      | ok branch => exact stepsRecorded_run rest branch q

end

theorem stepsRecorded_append (is others : List Instruction) (previous : Branch) (p : Progress) :
    ∃ branch, stepsRecorded e id settings (is ++ others) previous p =
      match stepsRecorded e id settings is previous p with
      | (.ok _, q, log) =>
          let ran := stepsRecorded e id settings others branch q
          (ran.1, ran.2.1, log ++ ran.2.2)
      | (.error failure, q, log) => (.error failure, q, log) := by
  induction is generalizing previous p with
  | nil =>
      refine ⟨previous, ?_⟩
      simp only [List.nil_append, stepsRecorded]
  | cons i rest ih =>
      simp only [List.cons_append, stepsRecorded]
      generalize stepRecorded e id settings i previous p = ran
      obtain ⟨outcome, q, log⟩ := ran
      cases outcome with
      | error failure => exact ⟨previous, rfl⟩
      | ok left =>
          obtain ⟨branch, after⟩ := ih left q
          refine ⟨branch, ?_⟩
          simp only [after]
          generalize stepsRecorded e id settings rest left q = ran
          obtain ⟨outcome, q', log'⟩ := ran
          cases outcome with
          | error failure => rfl
          | ok done => simp only [List.append_assoc]

theorem stepRecorded_marked {i : Instruction} {mark : TagMark} (marked : i.mark? = some mark)
    (previous : Branch) (p : Progress) :
    (stepRecorded e id settings i previous p).2.2 =
      if (stepRecorded e id settings i previous p).1.isOk then [.tag mark] else [] := by
  have plain : ∀ code line body, i ≠ .script code line body := by
    rintro code line body rfl
    cases marked
  rw [stepRecorded_eq_write plain, step_eq_write plain, marked]
  cases (write e settings p.context i p.buffer).1 <;> rfl

end

section

variable {e : Evaluator} {id : String} {settings : RenderSettings}

def Records (ran : Except Error Unit × Progress × List Executed) : Prop :=
  (ran.1.isOk = true → Executed.Complete ran.2.2) ∧ Executed.Started ran.2.2

theorem Records.of_complete {outcome : Except Error Unit} {p : Progress} {log : List Executed}
    (complete : Executed.Complete log) : Records (outcome, p, log) :=
  ⟨fun _ => complete, .complete complete⟩

theorem Records.append {is others : List Instruction}
    (first : ∀ previous p, Records (stepsRecorded e id settings is previous p))
    (second : ∀ previous p, Records (stepsRecorded e id settings others previous p))
    (previous : Branch) (p : Progress) :
    Records (stepsRecorded e id settings (is ++ others) previous p) := by
  obtain ⟨branch, after⟩ := stepsRecorded_append e id settings
    is others previous p
  have start := first previous p
  rw [after]
  generalize stepsRecorded e id settings is previous p = ran at start
  obtain ⟨outcome, q, log⟩ := ran
  cases outcome with
  | error failure => exact ⟨nofun, start.2⟩
  | ok done =>
      have rest := second branch q
      have complete := start.1 rfl
      constructor
      · intro success
        exact .append complete (rest.1 success)
      · exact .append complete rest.2

theorem Records.plain {i : Instruction} (unmarked : i.mark? = none)
    (plain : ∀ code line body, i ≠ .script code line body) (previous : Branch) (p : Progress) :
    Records (stepsRecorded e id settings [i] previous p) := by
  rw [stepsRecorded, stepRecorded_eq_write plain, unmarked]
  simp only [Option.toList_none, List.map_nil, ite_self, stepsRecorded]
  cases (step e id settings i previous p).1 with
  | ok branch => exact .of_complete .nil
  | error failure => exact .of_complete .nil

theorem Records.script {code : String} {line : Nat} {body : List Instruction}
    (blocks : ∀ previous p, Records (stepsRecorded e id settings body previous p))
    (previous : Branch) (p : Progress) :
    Records (stepsRecorded e id settings [.script code line body] previous p) := by
  have keeps : ∀ c (a : Buffer × List Executed), Executed.Complete a.2 →
      Executed.Complete (blockRecorded e id settings body c a).2.2.2 := by
    intro c a complete
    have ran := blocks .idle ⟨c, a.1⟩
    simp only [blockRecorded]
    generalize stepsRecorded e id settings body .idle ⟨c, a.1⟩ = result at ran
    obtain ⟨outcome, q, inside⟩ := result
    cases outcome with
    | ok done => exact complete.append (.ran (ran.1 rfl))
    | error failure => exact complete.append (.failed ran.2)
  have complete := Script.run_keeps (I := fun a => Executed.Complete a.2) keeps
    (e.execute code p.context previous !body.isEmpty) (a := (p.buffer, [])) .nil
  rw [stepsRecorded, stepRecorded_script]
  generalize (e.execute code p.context previous !body.isEmpty).run
    (blockRecorded e id settings body) (p.buffer, []) = ran at complete
  obtain ⟨outcome, c, b, log⟩ := ran
  cases outcome with
  | error failure => exact .of_complete complete
  | ok branch =>
      simp only [stepsRecorded, List.append_nil]
      exact .of_complete complete

theorem Records.enclosed {first last : Instruction} {inner : List Instruction} {ends : TagEnds}
    (opens : first.mark? = some (.opened ends)) (closes : last.mark? = some (.closed ends))
    (inside : ∀ previous p, Records (stepsRecorded e id settings inner previous p))
    (previous : Branch) (p : Progress) :
    Records (stepsRecorded e id settings (first :: inner ++ [last]) previous p) := by
  have opened := stepRecorded_marked e id settings opens previous p
  rw [List.cons_append, stepsRecorded]
  generalize stepRecorded e id settings first previous p = ran at opened
  obtain ⟨outcome, q, log⟩ := ran
  cases outcome with
  | error failure =>
      cases opened
      exact .of_complete .nil
  | ok branch =>
      cases opened
      obtain ⟨left, after⟩ := stepsRecorded_append e id settings
        inner [last] branch q
      have here := inside branch q
      simp only [after]
      generalize stepsRecorded e id settings inner branch q = ran at here
      obtain ⟨outcome, q', log⟩ := ran
      cases outcome with
      | error failure => exact ⟨nofun, here.2.opened ends⟩
      | ok done =>
          have closed := stepRecorded_marked e id settings closes left q'
          have complete := here.1 rfl
          simp only [stepsRecorded]
          generalize stepRecorded e id settings last left q' = ran at closed
          obtain ⟨outcome, q'', log'⟩ := ran
          cases outcome with
          | error failure =>
              cases closed
              refine ⟨nofun, ?_⟩
              simp only [List.append_nil]
              exact .opened ends (.complete complete)
          | ok done =>
              cases closed
              exact .of_complete (.enclosed ends complete)

end

end Render

/-- Instructions that open and close tags in pairs. -/
inductive Instruction.Balanced : List Instruction → Prop
  | nil : Balanced []
  | plain {i : Instruction} : i.mark? = none → (∀ code line body, i ≠ .script code line body) →
      Balanced [i]
  | script {code : String} {line : Nat} {body : List Instruction} :
      Balanced body → Balanced [.script code line body]
  | enclosed {first last : Instruction} {inner : List Instruction} {ends : TagEnds} :
      first.mark? = some (.opened ends) → last.mark? = some (.closed ends) →
      Balanced inner → Balanced (first :: inner ++ [last])
  | append {is others : List Instruction} : Balanced is → Balanced others → Balanced (is ++ others)

theorem Instruction.Balanced.cons {i : Instruction} {is : List Instruction} (first : Balanced [i])
    (rest : Balanced is) : Balanced (i :: is) :=
  first.append rest

namespace Compile

variable {o : Options}

theorem textLine_plain {depth line : Nat} {text : String} {i : Instruction}
    (ok : textLine o depth text line = .ok i) :
    i.mark? = none ∧ ∀ code line body, i ≠ .script code line body := by
  obtain ⟨parts, -, done⟩ := bind_ok ok
  cases parts with
  | fixed text =>
      cases done
      exact ⟨rfl, nofun⟩
  | interpolated segments =>
      cases done
      exact ⟨rfl, nofun⟩

open Instruction (Balanced)

theorem balanced_texts (depth : Nat) (texts : List String) :
    Balanced (texts.map (Instruction.text depth)) := by
  induction texts with
  | nil => exact .nil
  | cons text rest ih => exact .cons (.plain rfl nofun) ih

mutual

theorem Emits.balanced {depth : Nat} {n : Node} {is : List Instruction} :
    Emits o depth n is → Balanced is
  | .element _ _ => .plain rfl nofun
  | .nest merged _ nested => by
      obtain ⟨name, inner, outer⟩ := tag_keeps merged
      refine .enclosed ?_ rfl nested.balanced
      simp only [Instruction.mark?, name, inner, outer]
  | .text written => .plain (textLine_plain written).1 (textLine_plain written).2
  | .output _ => .plain rfl nofun
  | .suppressedOutput _ => .nil
  | .script _ body => .script body.balanced
  | .suppressedScript _ body => body.balanced
  | .inlineComment _ => .plain rfl nofun
  | .comment _ nested =>
      .append (.cons (.plain rfl nofun) nested.balanced) (.plain rfl nofun)
  | .silentComment => .nil
  | .filter _ => .plain rfl nofun
  | .doctype => by
      rw [Option.toList_map]
      exact balanced_texts depth _

theorem EmitsAll.balanced {depth : Nat} {ns : List Node} {is : List Instruction} :
    EmitsAll o depth ns is → Balanced is
  | .nil => .nil
  | .cons first others => .append first.balanced others.balanced

end

end Compile

namespace Render

theorem recorded (e : Evaluator) (id : String) (settings : RenderSettings)
    {is : List Instruction} (balanced : Instruction.Balanced is) (previous : Branch)
    (p : Progress) : Records (stepsRecorded e id settings is previous p) := by
  induction balanced generalizing previous p with
  | nil =>
      rw [stepsRecorded]
      exact .of_complete .nil
  | plain unmarked plain => exact .plain unmarked plain previous p
  | script _ ih => exact .script ih previous p
  | enclosed opens closes _ ih => exact .enclosed opens closes ih previous p
  | append _ _ ih ih' => exact .append ih ih' previous p

section

variable {e : Evaluator} (id : String) (settings : RenderSettings)

mutual

/-- Where failures are passed on, a step that succeeds has seen no block fail. -/
theorem stepRecorded_passes (passes : e.PassesFailures) (i : Instruction) (previous : Branch)
    (p : Progress)
    (success : (stepRecorded e id settings i previous p).1.isOk = true) :
    Executed.allFailures (stepRecorded e id settings i previous p).2.2 = [] := by
  match i with
  | .script code line body =>
      have keeps : ∀ c (a : Buffer × List Executed), Executed.allFailures a.2 = [] →
          (blockRecorded e id settings body c a).1 = .ok () →
          Executed.allFailures (blockRecorded e id settings body c a).2.2.2 = [] := by
        intro c a absent done
        have inside := stepsRecorded_passes passes body .idle ⟨c, a.1⟩
        simp only [blockRecorded] at done ⊢
        rw [done] at inside ⊢
        simp [Executed.allFailures, Executed.failures, absent, Except.isOk, Except.toBool,
          inside rfl]
      rw [stepRecorded_script] at success ⊢
      cases ran : ((e.execute code p.context previous !body.isEmpty).run
          (blockRecorded e id settings body) (p.buffer, [])).1 with
      | error failure =>
          simp only [ran] at success
          cases success
      | ok branch =>
          exact (passes code p.context previous _).run_ok (I := fun a => Executed.allFailures a.2 = [])
            keeps rfl ran
  | .text .. | .interpolated .. | .output .. | .element .. | .openTag .. | .closeTag ..
  | .filter .. =>
      rw [stepRecorded_eq_write (by intro _ _ _ same; cases same)]
      simp only
      split
      · exact Executed.allFailures_tags _
      · rfl

theorem stepsRecorded_passes (passes : e.PassesFailures) (is : List Instruction)
    (previous : Branch) (p : Progress)
    (success : (stepsRecorded e id settings is previous p).1.isOk = true) :
    Executed.allFailures (stepsRecorded e id settings is previous p).2.2 = [] := by
  match is with
  | [] =>
      rw [stepsRecorded]
      rfl
  | i :: rest =>
      have first := stepRecorded_passes passes i previous p
      rw [stepsRecorded] at success ⊢
      generalize stepRecorded e id settings i previous p = ran at first success
      obtain ⟨outcome, q, log⟩ := ran
      cases outcome with
      | error failure => cases success
      | ok branch =>
          have others := stepsRecorded_passes passes rest branch q success
          simp only [Executed.allFailures_append, first rfl, others, List.append_nil]

end

end

end Render

/-- What a render executes. -/
def Template.executed (t : Template) (e : Evaluator) (c : Context) : List Executed :=
  (Render.stepsRecorded e t.id t.settings t.instructions .idle ⟨c, .empty⟩).2.2

/-- A render that succeeds has closed each tag that it has opened, the latest first, with the name,
depth and trims of its opening, up to one thing: an evaluator may go on after a block of a script has
failed, and what such a block has left open stays open. No evaluator that passes failures on does, and
so none that a context has. -/
theorem Template.run_wellNested {source : String} {o : Options} {t : Template}
    (compiled : Template.compile source o = .ok t) {e : Evaluator} {c : Context} {text : String}
    (success : (t.run e c).1 = .ok text) :
    (WellNested (Executed.allMarks (t.executed e c)) ↔
      ∀ inside ∈ Executed.allFailures (t.executed e c), WellNested (Executed.allMarks inside)) ∧
    (e.PassesFailures → WellNested (Executed.allMarks (t.executed e c))) ∧
    ∀ (d : Dialect) nested, e = d.evaluatorWithin nested →
      WellNested (Executed.allMarks (t.executed e c)) := by
  obtain ⟨forest, -, compiled⟩ := bind_ok compiled
  have balanced := (Compile.emitsAll_of_compile compiled).1.balanced
  have records := Render.recorded e t.id t.settings balanced .idle
    ⟨c, .empty⟩
  have ran := Render.stepsRecorded_run e t.id t.settings t.instructions .idle ⟨c, .empty⟩
  have ok : (Render.stepsRecorded e t.id t.settings t.instructions .idle ⟨c, .empty⟩).1.isOk =
      true := by
    rw [Template.run, ← ran] at success
    generalize (Render.stepsRecorded e t.id t.settings t.instructions .idle ⟨c, .empty⟩).1 = outcome
      at success
    cases outcome with
    | ok done => rfl
    | error failure => cases success
  have complete : Executed.Complete (t.executed e c) := records.1 ok
  have passing (passes : e.PassesFailures) : WellNested (Executed.allMarks (t.executed e c)) := by
    have whole : Executed.allFailures (t.executed e c) = [] :=
      Render.stepsRecorded_passes t.id t.settings passes t.instructions .idle ⟨c, .empty⟩ ok
    refine complete.wellNested fun inside failed => ?_
    rw [whole] at failed
    cases failed
  refine ⟨complete.wellNested_iff, passing, ?_⟩
  rintro d nested rfl
  exact passing (d.passesFailures nested)

def tagPage : String := "%ul<\n  - twice\n    %li>\n      %b x\n  %p\n    - skipped"

def tagMarks : List TagMark :=
  let ul : TagEnds := ⟨0, "ul", true, false⟩
  let li : TagEnds := ⟨0, "li", false, true⟩
  let p : TagEnds := ⟨0, "p", false, false⟩
  [.opened ul, .opened li, .closed li, .opened li, .closed li, .opened p, .closed p, .closed ul]

theorem Template.run_wellNested_twice : ∃ t text,
    Template.compile tagPage Options.standard = .ok t ∧
    (t.run Evaluator.Echo.evaluator (.new .echo)).1 = .ok text ∧
    Executed.allMarks (t.executed Evaluator.Echo.evaluator (.new .echo)) = tagMarks ∧
    WellNested tagMarks := by
  have compiles : (Template.compile tagPage Options.standard).isOk = true := by decide +kernel
  have runs : ∀ t ∈ (Template.compile tagPage Options.standard).toOption,
      (t.run Evaluator.Echo.evaluator (.new .echo)).1.isOk = true ∧
        Executed.allMarks (t.executed Evaluator.Echo.evaluator (.new .echo)) = tagMarks := by
    decide +kernel
  cases compiled : Template.compile tagPage Options.standard with
  | error e =>
      rw [compiled] at compiles
      cases compiles
  | ok t =>
      rw [compiled] at runs
      have ran := runs t rfl
      cases success : (t.run Evaluator.Echo.evaluator (.new .echo)).1 with
      | error e =>
          rw [success] at ran
          cases ran.1
      | ok text =>
          have nested := (Template.run_wellNested compiled success).2.1 Evaluator.Echo.passesFailures
          rw [ran.2] at nested
          exact ⟨t, text, rfl, success, ran.2, nested⟩

/-- An evaluator that knows no values, and goes on after a block has failed. -/
def Evaluator.forgiving : Evaluator where
  evaluate _ _ := .error (.evaluation none "no value")
  check _ := .ok ()
  execute _ c _ hasBlock :=
    if hasBlock then .block c fun _ c => .done (.ok .idle) c else .done (.ok .idle) c

theorem Template.left_open_forgiving : ∃ t text,
    Template.compile "- s\n  %p\n    = y" Options.standard = .ok t ∧
    (t.run .forgiving (.new .echo)).1 = .ok text ∧
    ¬ WellNested (Executed.allMarks (t.executed .forgiving (.new .echo))) := by
  have compiles : (Template.compile "- s\n  %p\n    = y" Options.standard).isOk = true := by
    decide +kernel
  have runs : ∀ t ∈ (Template.compile "- s\n  %p\n    = y" Options.standard).toOption,
      (t.run .forgiving (.new .echo)).1.isOk = true ∧
        Executed.allMarks (t.executed .forgiving (.new .echo)) =
          [.opened ⟨0, "p", false, false⟩] := by
    decide +kernel
  cases compiled : Template.compile "- s\n  %p\n    = y" Options.standard with
  | error e =>
      rw [compiled] at compiles
      cases compiles
  | ok t =>
      rw [compiled] at runs
      obtain ⟨ran, marks⟩ := runs t rfl
      cases success : (t.run .forgiving (.new .echo)).1 with
      | error e =>
          rw [success] at ran
          cases ran
      | ok text =>
          refine ⟨t, text, rfl, success, ?_⟩
          rw [marks, WellNested]
          decide

end Haml
