import Haml.Compile
import Haml.Partial
import Haml.Proofs.Loops
/-! Chains of conditions: sibling scripts of which one block at most is run, that of the first whose
condition holds. -/

namespace Haml

namespace Statement

inductive Continues : List Statement → Prop
  | nil : Continues []
  | elseIf (condition : String) {rest : List Statement} :
      Continues rest → Continues (.elseIf condition :: rest)
  | otherwise : Continues [.otherwise]

/-- Statements that are a chain of conditions. -/
inductive Chain : List Statement → Prop
  | ifTrue (condition : String) {rest : List Statement} :
      Continues rest → Chain (.ifTrue condition :: rest)
  | ifFalse (condition : String) {rest : List Statement} :
      Continues rest → Chain (.ifFalse condition :: rest)

theorem Continues.of_cons {statement : Statement} {rest : List Statement}
    (continues : Continues (statement :: rest)) :
    (∃ condition, statement = .elseIf condition ∧ Continues rest) ∨
      (statement = .otherwise ∧ rest = []) := by
  cases continues with
  | elseIf condition continues => exact .inl ⟨condition, rfl, continues⟩
  | otherwise => exact .inr ⟨rfl, rfl⟩

theorem Chain.of_cons {statement : Statement} {rest : List Statement}
    (chain : Chain (statement :: rest)) :
    ((∃ condition, statement = .ifTrue condition) ∨ (∃ condition, statement = .ifFalse condition)) ∧
      Continues rest := by
  cases chain with
  | ifTrue condition continues => exact ⟨.inl ⟨condition, rfl⟩, continues⟩
  | ifFalse condition continues => exact ⟨.inr ⟨condition, rfl⟩, continues⟩

/-- Whether a statement of a chain calls for its block, where the ones before have not. -/
def holds? (value? : String → Except Error Value) : Statement → Except Error Bool
  | ifTrue condition | elseIf condition => Value.isTrue <$> value? condition
  | ifFalse condition => (fun v => !v.isTrue) <$> value? condition
  | otherwise => .ok true
  | each .. | assign .. | blockEnd | expression _ => .ok false

inductive Asked : Statement → Branch → Prop
  | ifTrue (condition : String) (previous : Branch) : Asked (.ifTrue condition) previous
  | ifFalse (condition : String) (previous : Branch) : Asked (.ifFalse condition) previous
  | elseIf (condition : String) : Asked (.elseIf condition) .skipped
  | otherwise : Asked .otherwise .skipped

inductive Leads : Statement → Prop
  | ifTrue (condition : String) : Leads (.ifTrue condition)
  | ifFalse (condition : String) : Leads (.ifFalse condition)
  | elseIf (condition : String) : Leads (.elseIf condition)
  | each (targets : List String) (items : String) : Leads (.each targets items)

end Statement

/-- A script line among its siblings, with its block. -/
structure Clause where
  code : String
  line : Nat
  body : List Instruction

namespace Clause

def instruction (k : Clause) : Instruction := .script k.code k.line k.body

def statement (k : Clause) : Statement := Statement.read k.code

/-- Whether `choice` is the first of some clauses that calls for its block. Of the conditions, those
up to it can be evaluated; nothing is said of the others. -/
inductive Chooses (value? : String → Except Error Value) : List Clause → Option Clause → Prop
  | none : Chooses value? [] none
  | here {k : Clause} {rest : List Clause} :
      k.statement.holds? value? = .ok true → Chooses value? (k :: rest) (some k)
  | later {k : Clause} {rest : List Clause} {choice : Option Clause} :
      k.statement.holds? value? = .ok false → Chooses value? rest choice →
      Chooses value? (k :: rest) choice

theorem exists_chooses {value? : String → Except Error Value} {clauses : List Clause}
    (evaluated : ∀ k ∈ clauses, ∃ holds, k.statement.holds? value? = .ok holds) :
    ∃ choice, Chooses value? clauses choice := by
  induction clauses with
  | nil => exact ⟨none, .none⟩
  | cons k rest ih =>
      obtain ⟨here, others⟩ := List.forall_mem_cons.mp evaluated
      obtain ⟨holds, found⟩ := here
      cases holds with
      | true => exact ⟨some k, .here found⟩
      | false =>
          obtain ⟨choice, chosen⟩ := ih others
          exact ⟨choice, .later found chosen⟩

def left (clauses : List Clause) (branch : Branch) : Branch :=
  if .otherwise ∈ clauses.map statement then .idle else branch

theorem left_cons {k : Clause} (conditional : k.statement ≠ .otherwise) (clauses : List Clause)
    (branch : Branch) : left (k :: clauses) branch = left clauses branch := by
  simp only [left, List.map_cons, List.mem_cons, conditional.symm, false_or]

end Clause

inductive Script.Leaves (R : Branch → Prop) : Script → Prop
  | done {outcome : Except Error Branch} {c : Context} :
      Gives R outcome → Leaves R (.done outcome c)
  | block {c : Context} {resume : Except Error Unit → Context → Script} :
      (∀ outcome d, (resume outcome d).Leaves R) → Leaves R (.block c resume)

namespace Script.Leaves

variable {R : Branch → Prop} {s : Script}

theorem run {σ : Type} (leaves : s.Leaves R)
    (body : Context → σ → Except Error Unit × Context × σ) (a : σ) : Gives R (s.run body a).1 := by
  induction leaves generalizing a with
  | done gives => exact gives
  | block _ ih => exact ih _ _ _

theorem once {branch : Branch} (holds : R branch) (hasBlock : Bool) (c : Context) :
    (Script.once branch hasBlock c).Leaves R := by
  cases hasBlock with
  | false => exact .done (.ok holds)
  | true =>
      refine .block fun outcome d => .done ?_
      cases outcome with
      | ok done => exact .ok holds
      | error failure => exact .error failure

end Script.Leaves

namespace Evaluator.Expressions

variable {value? : String → Context → Except Error Value} {c : Context}

theorem eachItem_leaves (collection : Value) (targets : List String) (length index : Nat)
    (items : List Value) :
    (eachItem collection targets length index items c).Leaves (· = .taken) := by
  induction items generalizing index c with
  | nil => exact .done (.ok rfl)
  | cons item rest ih =>
      unfold eachItem
      split
      · exact .done (.error _)
      · refine .block fun outcome d => ?_
        cases outcome with
        | ok done => exact ih (index + 1)
        | error failure => exact .done (.error failure)

theorem run_leaves_idle {statement : Statement} (ends : ¬ statement.Leads) (previous : Branch)
    (hasBlock : Bool) :
    (run value? statement c previous hasBlock).Leaves (· = .idle) := by
  cases statement with
  | ifTrue condition => exact absurd (.ifTrue condition) ends
  | ifFalse condition => exact absurd (.ifFalse condition) ends
  | elseIf condition => exact absurd (.elseIf condition) ends
  | each targets items => exact absurd (.each targets items) ends
  | otherwise =>
      cases previous with
      | taken => exact .done (.ok rfl)
      | skipped => exact .once (R := (· = .idle)) rfl hasBlock c
      | idle => exact .done (.error _)
  | assign name code =>
      simp only [run]
      split
      · exact .done (.error _)
      · exact .done (.ok rfl)
  | blockEnd => exact .done (.ok rfl)
  | expression code =>
      simp only [run]
      split
      · exact .done (.error _)
      · exact .once (R := (· = .idle)) rfl hasBlock c

theorem conditional_of_ok {condition : String} {v : Value} (given : value? condition c = .ok v)
    (wanted hasBlock : Bool) :
    conditional value? condition wanted c hasBlock =
      if v.isTrue = wanted then .once .taken hasBlock c else .done (.ok .skipped) c := by
  simp only [conditional, given]

theorem run_of_holds {statement : Statement} {previous : Branch} (hasBlock : Bool)
    (asked : statement.Asked previous) (holds : statement.holds? (value? · c) = .ok true) :
    run value? statement c previous hasBlock =
      .once (if statement = .otherwise then .idle else .taken) hasBlock c := by
  cases asked with
  | ifTrue condition previous | elseIf condition =>
      obtain ⟨v, given, isTrue⟩ := map_ok holds
      simp only [run, conditional_of_ok given, isTrue]
      rfl
  | ifFalse condition previous =>
      obtain ⟨v, given, isFalse⟩ := map_ok holds
      simp only [Bool.not_eq_true'] at isFalse
      simp only [run, conditional_of_ok given, isFalse]
      rfl
  | otherwise => rfl

theorem run_of_not_holds {statement : Statement} {previous : Branch} (hasBlock : Bool)
    (asked : statement.Asked previous) (fails : statement.holds? (value? · c) = .ok false) :
    run value? statement c previous hasBlock = .done (.ok .skipped) c := by
  cases asked with
  | ifTrue condition previous | elseIf condition =>
      obtain ⟨v, given, isFalse⟩ := map_ok fails
      simp only [run, conditional_of_ok given, isFalse]
      rfl
  | ifFalse condition previous =>
      obtain ⟨v, given, isTrue⟩ := map_ok fails
      simp only [Bool.not_eq_false'] at isTrue
      simp only [run, conditional_of_ok given, isTrue]
      rfl
  | otherwise => cases fails

end Evaluator.Expressions

/-- Whether the scripts of an evaluator are the statements of the script language. -/
def Evaluator.RunsStatements (e : Evaluator) : Prop :=
  ∀ code, e.execute code = Evaluator.Expressions.run e.evaluate (Statement.read code)

theorem Evaluator.Expressions.runsStatements (extra : List Function) (render : Render) :
    (evaluator extra render).RunsStatements := by
  intro code
  simp only [evaluator]

namespace Render

open Clause (Chooses left)

section

variable {e : Evaluator} {id : String} {settings : RenderSettings}

theorem step_once {code : String} {line : Nat} {body : List Instruction} {previous branch : Branch}
    {p : Progress}
    (once : e.execute code p.context previous (!body.isEmpty) =
      Script.once branch (!body.isEmpty) p.context) :
    step e id settings (.script code line body) previous p =
      ((steps e id settings body .idle p).1.map fun _ => branch,
        (steps e id settings body .idle p).2) := by
  rw [step_script, once]
  cases body with
  | nil =>
      rw [steps]
      rfl
  | cons i rest => rfl

def runChosen (e : Evaluator) (id : String) (settings : RenderSettings) (clauses : List Clause)
    (rest : List Instruction) (p : Progress) : Option Clause → Except Error Unit × Progress
  | none => steps e id settings rest .skipped p
  | some k =>
      match steps e id settings k.body .idle p with
      | (.ok _, q) => steps e id settings rest (left clauses .taken) q
      | (.error failure, q) => (.error (locate id k.instruction failure), q)

theorem runChosen_cons {k : Clause} (conditional : k.statement ≠ .otherwise)
    (clauses : List Clause) (rest : List Instruction) (p : Progress) (choice : Option Clause) :
    runChosen e id settings (k :: clauses) rest p choice =
      runChosen e id settings clauses rest p choice := by
  cases choice with
  | none => rfl
  | some chosen => simp only [runChosen, Clause.left_cons conditional]

end

/-- The first clause of a chain, or of the rest of one, evaluates its condition. -/
theorem asked_of_goes {k : Clause} {others : List Clause} {previous : Branch}
    (goes : Statement.Chain ((k :: others).map Clause.statement) ∨
      (previous = .skipped ∧ Statement.Continues ((k :: others).map Clause.statement))) :
    k.statement.Asked previous ∧ Statement.Continues (others.map Clause.statement) ∧
      (k.statement = .otherwise → others = []) := by
  rw [List.map_cons] at goes
  rcases goes with chain | ⟨rfl, continues⟩
  · rcases chain.of_cons with ⟨⟨condition, same⟩ | ⟨condition, same⟩, continues⟩
    · rw [same]
      exact ⟨.ifTrue condition previous, continues, nofun⟩
    · rw [same]
      exact ⟨.ifFalse condition previous, continues, nofun⟩
  · rcases continues.of_cons with ⟨condition, same, continues⟩ | ⟨same, last⟩
    · rw [same]
      exact ⟨.elseIf condition, continues, nofun⟩
    · rw [same, last]
      exact ⟨.otherwise, .nil, fun _ => List.map_eq_nil_iff.mp last⟩

section

variable {e : Evaluator} (statements : e.RunsStatements) {id : String} {settings : RenderSettings}
  {k : Clause} {clauses : List Clause} {rest : List Instruction} {previous : Branch} {p : Progress}

include statements

theorem step_clause_of_done {branch : Branch}
    (done : Evaluator.Expressions.run e.evaluate k.statement p.context previous (!k.body.isEmpty) =
      .done (.ok branch) p.context) :
    step e id settings k.instruction previous p = (.ok branch, p) := by
  rw [Clause.instruction, step_script, statements k.code, ← Clause.statement, done]
  rfl

/-- After the block of a chain has run, the rest of the chain does nothing. -/
theorem steps_of_taken (continues : Statement.Continues (clauses.map Clause.statement)) :
    steps e id settings (clauses.map Clause.instruction ++ rest) .taken p =
      steps e id settings rest (left clauses .taken) p := by
  induction clauses with
  | nil => rfl
  | cons k others ih =>
      rw [List.map_cons] at continues
      rw [List.map_cons, List.cons_append, steps]
      rcases continues.of_cons with ⟨condition, same, continues⟩ | ⟨same, last⟩
      · have stepped : step e id settings k.instruction .taken p = (.ok .taken, p) :=
          step_clause_of_done statements (by rw [same]; rfl)
        have kept : left (k :: others) .taken = left others .taken :=
          Clause.left_cons (by rw [same]; nofun) others .taken
        rw [stepped, kept]
        exact ih continues
      · obtain rfl := List.map_eq_nil_iff.mp last
        have stepped : step e id settings k.instruction .taken p = (.ok .idle, p) :=
          step_clause_of_done statements (by rw [same]; rfl)
        have closed : left [k] .taken = .idle := by
          simp [left, same]
        rw [stepped, closed]
        rfl

theorem step_clause_of_holds (asked : k.statement.Asked previous)
    (holds : k.statement.holds? (e.evaluate · p.context) = .ok true) :
    step e id settings k.instruction previous p =
      ((steps e id settings k.body .idle p).1.map fun _ =>
          if k.statement = .otherwise then .idle else .taken,
        (steps e id settings k.body .idle p).2) := by
  have executed := Evaluator.Expressions.run_of_holds (!k.body.isEmpty) asked holds
  rw [Clause.statement, ← statements k.code] at executed
  exact step_once executed

/-- Where no block of a chain has run so far, that of the first clause runs whose condition holds. -/
theorem steps_of_chooses {choice : Option Clause}
    (chooses : Chooses (e.evaluate · p.context) clauses choice)
    (goes : Statement.Chain (clauses.map Clause.statement) ∨
      (previous = .skipped ∧ Statement.Continues (clauses.map Clause.statement))) :
    steps e id settings (clauses.map Clause.instruction ++ rest) previous p =
      runChosen e id settings clauses rest p choice := by
  induction chooses generalizing previous with
  | none =>
      rcases goes with chain | both
      · cases chain
      · rw [List.map_nil, List.nil_append, both.1, runChosen]
  | @here k others holds =>
      have reached := asked_of_goes goes
      have stepped : step e id settings k.instruction previous p = _ :=
        step_clause_of_holds statements reached.1 holds
      rw [List.map_cons, List.cons_append, steps, stepped, runChosen]
      generalize steps e id settings k.body .idle p = ran
      obtain ⟨outcome, q⟩ := ran
      cases outcome with
      | error failure => rfl
      | ok done =>
          by_cases last : k.statement = .otherwise
          · obtain rfl := reached.2.2 last
            have closed : left [k] .taken = .idle := by
              simp [left, last]
            rw [if_pos last, closed]
            rfl
          · rw [if_neg last, Clause.left_cons last]
            exact steps_of_taken statements reached.2.1
  | @later k others choice fails _ ih =>
      have reached := asked_of_goes goes
      have stepped : step e id settings k.instruction previous p = (.ok .skipped, p) :=
        step_clause_of_done statements (Evaluator.Expressions.run_of_not_holds _ reached.1 fails)
      have conditional : k.statement ≠ .otherwise := by
        intro same
        rw [same] at fails
        cases fails
      rw [List.map_cons, List.cons_append, steps, stepped, runChosen_cons conditional]
      exact ih (.inr ⟨rfl, reached.2.1⟩)

end

section

variable {e : Evaluator} (statements : e.RunsStatements) {id : String} {settings : RenderSettings}
  {k : Clause} {targets : List String} {items : String} {v : Value} {previous : Branch}
  {p : Progress} (loop : k.statement = .each targets items)
  (given : e.evaluate items p.context = .ok v)

include statements loop given

theorem step_each_of_nil (empty : v.items = .ok []) :
    step e id settings k.instruction previous p = (.ok .skipped, p) := by
  refine step_clause_of_done statements ?_
  rw [loop]
  simp only [Evaluator.Expressions.run, Evaluator.Expressions.each, given, empty]

theorem step_each_of_ne_nil (filled : v.items ≠ .ok []) :
    Gives (· = .taken) (step e id settings k.instruction previous p).1 := by
  rw [Clause.instruction, step_script, statements k.code, ← Clause.statement, loop]
  simp only [Evaluator.Expressions.run, Evaluator.Expressions.each, given]
  split
  · exact .error _
  · next empty => exact absurd empty filled
  · split
    · exact (Evaluator.Expressions.eachItem_leaves v targets _ 0 _).run _ _
    · exact .ok rfl

end

section

variable {e : Evaluator} (statements : e.RunsStatements) {id : String} {settings : RenderSettings}

inductive Leads : Instruction → Prop
  | script {code : String} {line : Nat} {body : List Instruction} :
      (Statement.read code).Leads → Leads (.script code line body)

include statements

theorem step_idle {i : Instruction} (ends : ¬ Leads i) (previous : Branch) (p : Progress) :
    Gives (· = .idle) (step e id settings i previous p).1 := by
  cases i with
  | script code line body =>
      have idle : ¬ (Statement.read code).Leads := fun leads => ends (.script leads)
      rw [step_script, statements code]
      generalize Statement.read code = statement at idle
      exact (Evaluator.Expressions.run_leaves_idle idle previous _).run _ _
  | _ =>
      rw [step_eq_write (by intro _ _ _ same; cases same)]
      exact (Gives.any _).map fun _ _ => rfl

/-- What follows instructions of which the last is no part of a chain, or ends one, starts anew. -/
theorem steps_of_ended {before rest : List Instruction} {previous : Branch} {p q : Progress}
    (fresh : before = [] → previous = .idle) (ended : ∀ i ∈ before.getLast?, ¬ Leads i)
    (ran : steps e id settings before previous p = (.ok (), q)) :
    steps e id settings (before ++ rest) previous p = steps e id settings rest .idle q := by
  induction before generalizing previous p with
  | nil =>
      rw [steps] at ran
      cases ran
      rw [fresh rfl, List.nil_append]
  | cons i others ih =>
      have last : ∀ j ∈ others.getLast?, ¬ Leads j := by
        intro j member
        refine ended j ?_
        simp [List.getLast?_cons, Option.mem_def.mp member]
      have alone : others = [] → Gives (· = .idle) (step e id settings i previous p).1 := by
        intro absent
        refine step_idle statements (ended i ?_) previous p
        simp [absent]
      rw [List.cons_append, steps]
      rw [steps] at ran
      generalize step e id settings i previous p = stepped at ran alone
      obtain ⟨outcome, p'⟩ := stepped
      cases outcome with
      | error failure => cases ran
      | ok branch => exact ih (fun absent => alone absent branch rfl) last ran

/-- Where no chain is open, what can only go on from one is misplaced. -/
theorem steps_misplaced {k : Clause} {message : String} {rest : List Instruction} {p : Progress}
    (dangling :
      (∃ condition, k.statement = .elseIf condition ∧ message = "`elsif` without a preceding `if`") ∨
        (k.statement = .otherwise ∧ message = "`else` without a preceding `if`")) :
    steps e id settings (k.instruction :: rest) .idle p =
      (.error (.evaluation (some ⟨id, k.line⟩) message), p) := by
  have executed : e.execute k.code p.context .idle (!k.body.isEmpty) =
      .done (.error (.evaluation none message)) p.context := by
    rw [statements k.code, ← Clause.statement]
    rcases dangling with ⟨condition, same, rfl⟩ | ⟨same, rfl⟩
    · rw [same]
      rfl
    · rw [same]
      rfl
  rw [Clause.instruction, steps, step_script, executed]
  rfl

end

end Render

namespace Compile

/-- Whether sibling nodes are script lines, compiled to `clauses`, with nothing but silent comments
between them. -/
inductive Siblings (o : Options) (depth : Nat) : List Node → List Clause → Prop
  | nil : Siblings o depth [] []
  | comment {line : Nat} {children ns : List Node} {clauses : List Clause} :
      Siblings o depth ns clauses → Siblings o depth (⟨.silentComment, line, children⟩ :: ns) clauses
  | script {code : String} {line : Nat} {body : List Instruction} {children ns : List Node}
      {clauses : List Clause} :
      nodes o depth children = .ok body → Siblings o depth ns clauses →
      Siblings o depth (⟨.script code, line, children⟩ :: ns) (⟨code, line, body⟩ :: clauses)

variable {o : Options} {depth : Nat}

theorem exists_siblings (evaluated : o.suppressEval = false) {ns after : List Node}
    {is : List Instruction} (compiled : nodes o depth (ns ++ after) = .ok is)
    (scripts : ∀ n ∈ ns, n.kind = .silentComment ∨ ∃ code, n.kind = .script code) :
    ∃ clauses rest, Siblings o depth ns clauses ∧ nodes o depth after = .ok rest ∧
      is = clauses.map Clause.instruction ++ rest := by
  induction ns generalizing is with
  | nil => exact ⟨[], is, .nil, compiled, rfl⟩
  | cons n others ih =>
      obtain ⟨kind, line, children⟩ := n
      have here := List.forall_mem_cons.mp scripts
      rw [List.cons_append, nodes] at compiled
      obtain ⟨first, compiledFirst, compiled⟩ := bind_ok compiled
      obtain ⟨last, compiledLast, compiled⟩ := bind_ok compiled
      cases compiled
      obtain ⟨clauses, rest, siblings, compiledRest, rfl⟩ := ih compiledLast here.2
      rcases here.1 with silent | ⟨code, script⟩
      · cases silent
        rw [node] at compiledFirst
        cases compiledFirst
        exact ⟨clauses, rest, .comment siblings, compiledRest, rfl⟩
      · cases script
        rw [node] at compiledFirst
        obtain ⟨body, compiledBody, compiledFirst⟩ := bind_ok compiledFirst
        simp only [evaluated] at compiledFirst
        cases compiledFirst
        exact ⟨_, rest, .script compiledBody siblings, compiledRest, rfl⟩

end Compile

namespace Render

open Clause (Chooses left)

structure RunsOne (e : Evaluator) (id : String) (settings : RenderSettings) (clauses : List Clause)
    (rest is : List Instruction) : Prop where
  /-- Of a chain runs the block of the first clause whose condition holds, and no other. -/
  chain : Statement.Chain (clauses.map Clause.statement) → ∀ previous p choice,
    Chooses (e.evaluate · p.context) clauses choice →
      steps e id settings is previous p = runChosen e id settings clauses rest p choice
  /-- Where each condition can be evaluated, the clause to choose is determined. -/
  chosen : ∀ c, (∀ k ∈ clauses, ∃ holds, k.statement.holds? (e.evaluate · c) = .ok holds) →
    ∃ choice, Chooses (e.evaluate · c) clauses choice
  /-- After a loop through nothing, what goes on from it does so as if no condition had held. -/
  loop_nil : ∀ k later targets items v, clauses = k :: later → k.statement = .each targets items →
    Statement.Continues (later.map Clause.statement) → ∀ previous p choice,
    e.evaluate items p.context = .ok v → v.items = .ok [] →
    Chooses (e.evaluate · p.context) later choice →
      steps e id settings is previous p = runChosen e id settings later rest p choice
  /-- After a loop through something, what goes on from it does nothing. -/
  loop_ne_nil : ∀ k later targets items v, clauses = k :: later →
    k.statement = .each targets items → Statement.Continues (later.map Clause.statement) →
    ∀ previous p, e.evaluate items p.context = .ok v → v.items ≠ .ok [] →
      steps e id settings is previous p =
        match step e id settings k.instruction previous p with
        | (.ok _, q) => steps e id settings rest (left later .taken) q
        | (.error failure, q) => (.error (locate id k.instruction failure), q)

theorem runsOne {e : Evaluator} (statements : e.RunsStatements) (id : String)
    (settings : RenderSettings) (clauses : List Clause) (rest : List Instruction) :
    RunsOne e id settings clauses rest (clauses.map Clause.instruction ++ rest) where
  chain := by
    intro chain previous p choice chooses
    exact steps_of_chooses statements chooses (.inl chain)
  chosen := by
    intro c evaluated
    exact Clause.exists_chooses evaluated
  loop_nil := by
    rintro k later targets items v rfl loop continues previous p choice given empty chooses
    rw [List.map_cons, List.cons_append, steps, step_each_of_nil statements loop given empty]
    exact steps_of_chooses statements chooses (.inr ⟨rfl, continues⟩)
  loop_ne_nil := by
    rintro k later targets items v rfl loop continues previous p given filled
    have taken : Gives (· = .taken) (step e id settings k.instruction previous p).1 :=
      step_each_of_ne_nil statements loop given filled
    rw [List.map_cons, List.cons_append, steps]
    generalize step e id settings k.instruction previous p = stepped at taken
    obtain ⟨outcome, q⟩ := stepped
    cases outcome with
    | error failure => rfl
    | ok branch =>
        obtain rfl : branch = .taken := taken branch rfl
        exact steps_of_taken statements continues

/-- Of sibling scripts that are a chain, compiled to be evaluated, the block of the first runs whose
condition holds, and no other; the conditions after it do not matter, and what follows does not depend
on what the block has done but through the variables. An else after a loop runs its block if there was
nothing to go through. What can only go on from a chain, where none is open, is a failure. -/
theorem steps_siblings (extra : List Function) (render : Evaluator.Expressions.Render)
    (id : String) (settings : RenderSettings) :
    (∀ (o : Options) (depth : Nat) (ns after : List Node) (is : List Instruction),
      o.suppressEval = false → Compile.nodes o depth (ns ++ after) = .ok is →
      (∀ n ∈ ns, n.kind = .silentComment ∨ ∃ code, n.kind = .script code) →
      ∃ clauses rest, Compile.Siblings o depth ns clauses ∧
        Compile.nodes o depth after = .ok rest ∧
        RunsOne (Evaluator.Expressions.evaluator extra render) id settings clauses rest is) ∧
    ∀ (before : List Instruction) (k : Clause) (message : String) (rest : List Instruction)
      (p q : Progress), (∀ i ∈ before.getLast?, ¬ Leads i) →
      steps (Evaluator.Expressions.evaluator extra render) id settings before .idle p = (.ok (), q) →
      ((∃ condition, k.statement = .elseIf condition ∧
          message = "`elsif` without a preceding `if`") ∨
        (k.statement = .otherwise ∧ message = "`else` without a preceding `if`")) →
      steps (Evaluator.Expressions.evaluator extra render) id settings
          (before ++ k.instruction :: rest) .idle p =
        (.error (.evaluation (some ⟨id, k.line⟩) message), q) := by
  have statements := Evaluator.Expressions.runsStatements extra render
  constructor
  · intro o depth ns after is evaluated compiled scripts
    obtain ⟨clauses, rest, siblings, compiledRest, rfl⟩ :=
      Compile.exists_siblings evaluated compiled scripts
    exact ⟨clauses, rest, siblings, compiledRest, runsOne statements id settings clauses rest⟩
  · intro before k message rest p q ended ran dangling
    rw [steps_of_ended statements (fun _ => rfl) ended ran]
    exact steps_misplaced statements dangling

end Render

/-! A chain whose second condition holds, with a comment in it and another chain in its block. -/

namespace Branching

def nodes : List Node :=
  [⟨.script "if a", 1, [⟨.text "first", 2, []⟩]⟩, ⟨.silentComment, 3, []⟩,
    ⟨.script "elsif b", 5, [⟨.script "unless c", 6, [⟨.text "second", 7, []⟩]⟩]⟩,
    ⟨.script "else", 8, [⟨.text "third", 9, []⟩]⟩]

def after : List Node := [⟨.text "last", 10, []⟩]

def clauses : List Clause :=
  [⟨"if a", 1, [.text 0 "first"]⟩,
    ⟨"elsif b", 5, [.script "unless c" 6 [.text 0 "second"]]⟩,
    ⟨"else", 8, [.text 0 "third"]⟩]

def context : Context := (Context.new (.expressions [])).bind "b" (.bool true)

def evaluator : Evaluator := Evaluator.Expressions.evaluator [] fun _ _ => .error .invalidOperation

theorem compile_nodes : Compile.nodes Options.standard 0 (nodes ++ after) =
    .ok (clauses.map Clause.instruction ++ [.text 0 "last"]) := rfl

theorem chain : Statement.Chain (clauses.map Clause.statement) := by
  have statements : clauses.map Clause.statement = [.ifTrue "a", .elseIf "b", .otherwise] := by
    decide +kernel
  rw [statements]
  exact .ifTrue "a" (.elseIf "b" .otherwise)

def second : Clause := ⟨"elsif b", 5, [.script "unless c" 6 [.text 0 "second"]]⟩

theorem chooses : Clause.Chooses (evaluator.evaluate · context) clauses (some second) := by
  have a : Expr.parse "a" = .ok (.var "a") := Expr.parse_of_isVar (by decide +kernel)
  have b : Expr.parse "b" = .ok (.var "b") := Expr.parse_of_isVar (by decide +kernel)
  have first : evaluator.evaluate "a" context = .ok .undefined :=
    Evaluator.Expressions.evaluate_var a context
  have next : evaluator.evaluate "b" context = .ok (.bool true) :=
    Evaluator.Expressions.evaluate_var b context
  have readFirst : Statement.read "if a" = .ifTrue "a" := by decide +kernel
  have readNext : Statement.read "elsif b" = .elseIf "b" := by decide +kernel
  refine .later ?_ (.here ?_)
  · simp only [Clause.statement, readFirst, Statement.holds?, first]
    rfl
  · simp only [Clause.statement, readNext, Statement.holds?, next]
    rfl

theorem steps_second (settings : RenderSettings) :
    Render.steps evaluator "haml" settings second.body .idle ⟨context, .empty⟩ =
      (.ok (), ⟨context, Buffer.empty.line 0 "second".toList⟩) := by
  have c : Expr.parse "c" = .ok (.var "c") := Expr.parse_of_isVar (by decide +kernel)
  have given : evaluator.evaluate "c" context = .ok .undefined :=
    Evaluator.Expressions.evaluate_var c context
  have read : Statement.read "unless c" = .ifFalse "c" := by decide +kernel
  have nested : Clause.Chooses (evaluator.evaluate · context)
      [⟨"unless c", 6, [.text 0 "second"]⟩] (some ⟨"unless c", 6, [.text 0 "second"]⟩) := by
    refine .here ?_
    simp only [Clause.statement, read, Statement.holds?, given]
    rfl
  have chain : Statement.Chain ([⟨"unless c", 6, [.text 0 "second"]⟩].map Clause.statement) := by
    simp only [List.map_cons, List.map_nil, Clause.statement, read]
    exact .ifFalse "c" .nil
  have statements : evaluator.RunsStatements := Evaluator.Expressions.runsStatements _ _
  have ran : Render.steps evaluator "haml" settings
      ([⟨"unless c", 6, [.text 0 "second"]⟩].map Clause.instruction ++ []) .idle ⟨context, .empty⟩ =
        _ := Render.steps_of_chooses statements nested (.inl chain)
  exact ran.trans rfl

end Branching

open Branching in
theorem Render.steps_siblings_second :
    ∃ is, Compile.nodes Options.standard 0 (nodes ++ after) = .ok is ∧
      (∃ b, steps Branching.evaluator "haml" Options.standard.renderSettings is .idle
        ⟨context, .empty⟩ = (.ok (), ⟨context, b⟩) ∧ String.ofList b.text = "second\nlast\n") ∧
      (steps Branching.evaluator "haml" Options.standard.renderSettings
        [.text 0 "x", .script "else" 2 []] .idle ⟨context, .empty⟩).1 =
          .error (.evaluation (some ⟨"haml", 2⟩) "`else` without a preceding `if`") := by
  obtain ⟨one, misplaced⟩ := steps_siblings [] (fun _ _ => .error .invalidOperation) "haml"
    Options.standard.renderSettings
  have scripts : ∀ n ∈ nodes, n.kind = .silentComment ∨ ∃ code, n.kind = .script code := by
    simp [nodes]
  obtain ⟨clauses', rest, siblings, compiledRest, runs⟩ :=
    one Options.standard 0 nodes after _ rfl compile_nodes scripts
  have same : clauses' = clauses ∧ rest = [.text 0 "last"] := by
    cases compiledRest
    cases siblings with
    | script compiledFirst others =>
        cases compiledFirst
        cases others with
        | comment others =>
            cases others with
            | script compiledNext others =>
                cases compiledNext
                cases others with
                | script compiledLast others =>
                    cases compiledLast
                    cases others
                    exact ⟨rfl, rfl⟩
  obtain ⟨rfl, rfl⟩ := same
  have ran := runs.chain chain .idle ⟨context, .empty⟩ _ chooses
  have inside := steps_second Options.standard.renderSettings
  rw [Branching.evaluator] at inside
  have dangling := misplaced [.text 0 "x"] ⟨"else", 2, []⟩ _ [] ⟨context, .empty⟩
    ⟨context, Buffer.empty.line 0 "x".toList⟩ (by simp; nofun) rfl (.inr ⟨by decide +kernel, rfl⟩)
  refine ⟨_, compile_nodes, ⟨(Buffer.empty.line 0 "second".toList).line 0 "last".toList,
    ran.trans ?_, by decide +kernel⟩, ?_⟩
  · rw [runChosen, inside]
    rfl
  · exact congrArg Prod.fst dangling

end Haml
