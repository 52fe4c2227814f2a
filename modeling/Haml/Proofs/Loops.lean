import Haml.Compile
import Haml.Partial
import Haml.Proofs.Ordered
import Haml.Proofs.Outcome
/-! Loops: what a loop does to the variables around it. Its own variables go with the scope of each
item, and the names that its block makes up go with them. -/

namespace Haml

open Dict

namespace Context

/-- Whether scopes, nearest first, have the names they had, and each value is that of before unless
its name satisfies `A` and no nearer scope has the name. -/
inductive Reassigned : (String → Prop) → List Scope → List Scope → Prop
  | nil {A : String → Prop} : Reassigned A [] []
  | cons {A : String → Prop} {scope new : Scope} {scopes others : List Scope} :
      (∀ name, new.contains name = scope.contains name) →
      (∀ name, ¬ A name → new.find? name = scope.find? name) →
      Reassigned (fun name => A name ∧ scope.contains name = false) scopes others →
      Reassigned A (scope :: scopes) (new :: others)

namespace Reassigned

variable {A B : String → Prop} {scopes others last : List Scope}

theorem same (A : String → Prop) (scopes : List Scope) : Reassigned A scopes scopes := by
  induction scopes generalizing A with
  | nil => exact .nil
  | cons scope scopes ih =>
      refine .cons ?_ ?_ (ih _)
      · intro name
        rfl
      · intro name _
        rfl

theorem mono (change : Reassigned A scopes others) (weaker : ∀ name, A name → B name) :
    Reassigned B scopes others := by
  induction change generalizing B with
  | nil => exact .nil
  | cons names values _ ih =>
      refine .cons names ?_ ?_
      · intro name other
        exact values name fun assigned => other (weaker name assigned)
      · exact ih fun name both => ⟨weaker name both.1, both.2⟩

theorem trans (first : Reassigned A scopes others) (second : Reassigned A others last) :
    Reassigned A scopes last := by
  induction first generalizing last with
  | nil => exact second
  | @cons A scope new scopes others names values _ ih =>
      cases second with
      | @cons _ _ final _ rest names' values' second =>
          have shadowed : Reassigned (fun name => A name ∧ scope.contains name = false) others rest :=
            second.mono fun name both => ⟨both.1, (names name).symm.trans both.2⟩
          refine .cons ?_ ?_ (ih shadowed)
          · intro name
            rw [names', names]
          · intro name other
            rw [values' name other, values name other]

theorem length_eq (change : Reassigned A scopes others) : others.length = scopes.length := by
  induction change with
  | nil => rfl
  | cons _ _ _ ih => simp [ih]

theorem findSome?_eq (change : Reassigned A scopes others) {name : String} (other : ¬ A name) :
    (others.findSome? fun scope => scope.find? name) =
      scopes.findSome? fun scope => scope.find? name := by
  induction change with
  | nil => rfl
  | cons _ values _ ih =>
      have rest := ih fun both => other both.1
      rw [List.findSome?_cons, List.findSome?_cons, values name other, rest]

theorem findSome?_eq_none (change : Reassigned A scopes others) (name : String) :
    (others.findSome? fun scope => scope.find? name) = none ↔
      (scopes.findSome? fun scope => scope.find? name) = none := by
  induction change with
  | nil => rfl
  | @cons _ scope new _ _ names _ _ ih =>
      have here : new.find? name = none ↔ scope.find? name = none := by
        have both := names name
        simp only [contains_eq_find?] at both
        cases h : new.find? name <;> cases h' : scope.find? name <;> simp_all
      simp only [List.findSome?_eq_none_iff, List.forall_mem_cons] at ih ⊢
      rw [here, ih]

theorem assignIn {name : String} (assigned : A name) (value : Value) (scopes : List Scope) :
    Reassigned A scopes (Context.assignIn name value scopes) := by
  induction scopes generalizing A with
  | nil => exact .nil
  | cons scope rest ih =>
      unfold Context.assignIn
      split
      · next present =>
          refine .cons ?_ ?_ (same _ rest)
          · intro other
            simp only [contains_eq_find?, find?_insert] at present ⊢
            by_cases this : name = other
            · simp [← this, present]
            · simp [this]
          · intro other free
            exact find?_insert_of_ne fun this => free (this ▸ assigned)
      · next absent =>
          refine .cons ?_ ?_ (ih ⟨assigned, by simpa using absent⟩)
          · intro other
            rfl
          · intro other _
            rfl

end Reassigned

structure Reassigns (A : String → Prop) (c d : Context) : Prop where
  dialect : d.dialect = c.dialect
  partials : d.partials = c.partials
  methods : d.methods = c.methods
  depth : d.depth = c.depth
  scopes : Reassigned A c.scopes d.scopes

/-- Whether a context differs from another one only in the values of names in `A`, some of which may
be new in its innermost scope. -/
structure Extends (A : String → Prop) (c d : Context) : Prop where
  dialect : d.dialect = c.dialect
  partials : d.partials = c.partials
  methods : d.methods = c.methods
  depth : d.depth = c.depth
  names : ∀ name, c.inner.contains name = true → d.inner.contains name = true
  inner : ∀ name, ¬ A name → d.inner.find? name = c.inner.find? name
  outer : Reassigned (fun name => A name ∧ c.inner.contains name = false) c.outer d.outer

variable {A B : String → Prop} {c d last : Context}

theorem Reassigns.same (A : String → Prop) (c : Context) : c.Reassigns A c :=
  ⟨rfl, rfl, rfl, rfl, .same A c.scopes⟩

theorem Reassigns.mono (change : c.Reassigns A d) (weaker : ∀ name, A name → B name) :
    c.Reassigns B d :=
  { change with scopes := change.scopes.mono weaker }

theorem Reassigns.trans (first : c.Reassigns A d) (second : d.Reassigns A last) :
    c.Reassigns A last where
  dialect := second.dialect.trans first.dialect
  partials := second.partials.trans first.partials
  methods := second.methods.trans first.methods
  depth := second.depth.trans first.depth
  scopes := first.scopes.trans second.scopes

theorem Reassigns.lookup_eq (change : c.Reassigns A d) {name : String} (other : ¬ A name) :
    d.lookup name = c.lookup name :=
  change.scopes.findSome?_eq other

theorem Reassigns.lookup_eq_none (change : c.Reassigns A d) (name : String) :
    d.lookup name = none ↔ c.lookup name = none :=
  change.scopes.findSome?_eq_none name

theorem Reassigns.extends (change : c.Reassigns A d) : c.Extends A d := by
  obtain ⟨dialect, partials, methods, depth, scopes⟩ := change
  unfold Context.scopes at scopes
  cases scopes with
  | cons names values outer =>
      refine ⟨dialect, partials, methods, depth, ?_, values, outer⟩
      intro name present
      exact (names name).trans present

theorem Extends.same (A : String → Prop) (c : Context) : c.Extends A c :=
  (Reassigns.same A c).extends

theorem Extends.trans (first : c.Extends A d) (second : d.Extends A last) :
    c.Extends A last where
  dialect := second.dialect.trans first.dialect
  partials := second.partials.trans first.partials
  methods := second.methods.trans first.methods
  depth := second.depth.trans first.depth
  names := fun name present => second.names name (first.names name present)
  inner := fun name other => (second.inner name other).trans (first.inner name other)
  outer := by
    refine first.outer.trans (second.outer.mono fun name both => ⟨both.1, ?_⟩)
    cases present : c.inner.contains name with
    | false => rfl
    | true =>
        have kept := first.names name present
        simp [kept] at both

theorem extends_assign {name : String} (assigned : A name) (value : Value) :
    c.Extends A (c.assign name value) := by
  unfold assign
  split
  · refine ⟨rfl, rfl, rfl, rfl, ?_, ?_, .same _ _⟩
    · intro other present
      by_cases this : name = other
      · simp [bind, contains_eq_find?, find?_insert, this]
      · simpa [bind, contains_eq_find?, find?_insert, this] using present
    · intro other free
      exact find?_insert_of_ne fun this => free (this ▸ assigned)
  · next elsewhere =>
      have absent : c.inner.contains name = false := by
        simp only [Bool.or_eq_true, not_or, Bool.not_eq_true] at elsewhere
        exact elsewhere.1
      refine ⟨rfl, rfl, rfl, rfl, fun _ present => present, fun _ _ => rfl, ?_⟩
      exact .assignIn ⟨assigned, absent⟩ value c.outer

/-- Leaving the innermost scope undoes what has happened in it: the scopes below have changed only
where it had no name to stand in the way. -/
theorem Extends.popScope {inner : Scope} (change : Extends A { c.pushScope with inner := inner } d) :
    c.Reassigns (fun name => A name ∧ inner.contains name = false) d.popScope := by
  obtain ⟨dialect, partials, methods, depth, -, -, scopes⟩ := change
  unfold Context.popScope
  cases found : d.outer with
  | nil =>
      rw [found] at scopes
      cases scopes
  | cons new others =>
      rw [found] at scopes
      exact ⟨dialect, partials, methods, depth, scopes⟩

theorem contains_merge {scope : Scope} {entries : List (String × Value)} {name : String}
    (bound : scope.contains name = true ∨ name ∈ entries.map Prod.fst) :
    (scope.merge entries).contains name = true := by
  induction entries generalizing scope with
  | nil => exact bound.resolve_right (by simp)
  | cons entry rest ih =>
      refine @ih (scope.insert entry.1 entry.2) ?_
      by_cases here : entry.1 = name
      · left
        simp [contains_eq_find?, find?_insert, here]
      · rcases bound with present | listed
        · left
          simpa [contains_eq_find?, find?_insert, here] using present
        · right
          simpa [Ne.symm here] using listed

end Context

open Context

/-- Whether a script ends in a context that satisfies `R` if its blocks extend the contexts they are
run with by no names but those in `A`. -/
inductive Script.Ends (A : String → Prop) (R : Context → Prop) : Script → Prop
  | done {outcome : Except Error Branch} {c : Context} : R c → Ends A R (.done outcome c)
  | block {c : Context} {resume : Except Error Unit → Context → Script} :
      (∀ outcome d, c.Extends A d → Ends A R (resume outcome d)) → Ends A R (.block c resume)

namespace Script.Ends

variable {A : String → Prop} {R S : Context → Prop} {s : Script}

theorem mono (ends : s.Ends A R) (weaker : ∀ c, R c → S c) : s.Ends A S := by
  induction ends with
  | done here => exact .done (weaker _ here)
  | block _ ih => exact .block ih

theorem run {σ : Type} {body : Context → σ → Except Error Unit × Context × σ} (ends : s.Ends A R)
    (blocks : ∀ (c : Context) a, c.Extends A (body c a).2.1) (a : σ) : R (s.run body a).2.1 := by
  induction ends generalizing a with
  | done here => exact here
  | @block c _ _ ih => exact ih _ _ (blocks c a) _

theorem once {c : Context} (branch : Branch) (hasBlock : Bool) :
    (Script.once branch hasBlock c).Ends A (c.Extends A) := by
  cases hasBlock with
  | false => exact .done (.same A c)
  | true => exact .block fun outcome d change => .done change

end Script.Ends

namespace Evaluator.Expressions

variable {A : String → Prop} {c : Context}

theorem names_unpack {item : Value} {targets : List String} {i : Nat}
    {bound : List (String × Value)} (unpacked : unpack item i targets = .ok bound) :
    bound.map Prod.fst = targets := by
  induction targets generalizing i bound with
  | nil =>
      cases unpacked
      rfl
  | cons target rest ih =>
      rw [unpack] at unpacked
      obtain ⟨part, -, unpacked⟩ := bind_ok unpacked
      obtain ⟨others, found, unpacked⟩ := bind_ok unpacked
      cases unpacked
      rw [List.map_cons, ih found]

theorem names_targetsAt {collection item : Value} {targets : List String}
    {bound : List (String × Value)} (given : targetsAt collection targets item = .ok bound) :
    bound.map Prod.fst = targets := by
  unfold targetsAt at given
  split at given
  · cases given
    rfl
  · split at given
    · obtain ⟨value, -, given⟩ := bind_ok given
      cases given
      rfl
    · exact names_unpack given
  · exact names_unpack given

/-- Each item is gone through in a scope that has the targets and `loop`, so that no change of those
reaches the scopes below. -/
theorem eachItem_ends (collection : Value) (targets : List String) (length index : Nat)
    (items : List Value) :
    (eachItem collection targets length index items c).Ends A
      (c.Reassigns fun name => A name ∧ name ∉ targets ∧ name ≠ "loop") := by
  induction items generalizing index c with
  | nil => exact .done (.same _ c)
  | cons item rest ih =>
      unfold eachItem
      cases given : targetsAt collection targets item with
      | error fault => exact .done (.same _ c)
      | ok bound =>
          refine .block fun outcome d change => ?_
          have left : c.Reassigns (fun name => A name ∧ name ∉ targets ∧ name ≠ "loop")
              d.popScope := by
            rw [bindAll_eq] at change
            refine change.popScope.mono ?_
            rintro name ⟨assigned, free⟩
            refine ⟨assigned, fun target => ?_, fun isLoop => ?_⟩
            · have listed : name ∈ bound.map Prod.fst := names_targetsAt given ▸ target
              have present : (Dict.merge [] bound).contains name = true :=
                contains_merge (.inr listed)
              by_cases here : "loop" = name
              · simp [contains_eq_find?, find?_insert, here] at free
              · simp only [contains_eq_find?, find?_insert_of_ne here] at free present
                have absent : ((Dict.merge [] bound).find? name).isSome = false := free
                simp [absent] at present
            · simp [contains_eq_find?, find?_insert, isLoop] at free
          cases outcome with
          | error e => exact .done left
          | ok done => exact (ih (index + 1)).mono fun last after => left.trans after

variable {value? : String → Context → Except Error Value}

theorem each_ends (targets : List String) (items : String) (hasBlock : Bool) :
    (each value? targets items c hasBlock).Ends A
      (c.Reassigns fun name => A name ∧ name ∉ targets ∧ name ≠ "loop") := by
  unfold each
  split
  · exact .done (.same _ c)
  · split
    · exact .done (.same _ c)
    · exact .done (.same _ c)
    · split
      · exact eachItem_ends ..
      · exact .done (.same _ c)

theorem conditional_ends (condition : String) (wanted hasBlock : Bool) :
    (conditional value? condition wanted c hasBlock).Ends A (c.Extends A) := by
  unfold conditional
  split
  · exact .done (.same A c)
  · split
    · exact .once .taken hasBlock
    · exact .done (.same A c)

/-- What a statement of the script language does to the variables around it. -/
theorem run_ends {statement : Statement} (previous : Branch) (hasBlock : Bool)
    (assigned : ∀ name value, statement = .assign name value → A name) :
    (run value? statement c previous hasBlock).Ends A (c.Extends A) := by
  cases statement with
  | ifTrue condition => exact conditional_ends condition true hasBlock
  | ifFalse condition => exact conditional_ends condition false hasBlock
  | elseIf condition =>
      cases previous with
      | skipped => exact conditional_ends condition true hasBlock
      | taken | idle => exact .done (.same A c)
  | otherwise =>
      cases previous with
      | skipped => exact .once .idle hasBlock
      | taken | idle => exact .done (.same A c)
  | each targets items =>
      refine (each_ends targets items hasBlock).mono fun d change => ?_
      exact (change.mono fun name both => both.1).extends
  | assign name code =>
      simp only [run]
      split
      · exact .done (.same A c)
      · exact .done (extends_assign (assigned name code rfl) _)
  | blockEnd => exact .done (.same A c)
  | expression code =>
      simp only [run]
      split
      · exact .done (.same A c)
      · exact .once .idle hasBlock

end Evaluator.Expressions

inductive Instruction.Assigns (name : String) : Instruction → Prop
  | here {code : String} {line : Nat} {body : List Instruction} {value : String} :
      Statement.read code = .assign name value → Assigns name (.script code line body)
  | inside {code : String} {line : Nat} {body : List Instruction} {i : Instruction} :
      i ∈ body → i.Assigns name → Assigns name (.script code line body)

inductive Instruction.Runs (code : String) : Instruction → Prop
  | here {line : Nat} {body : List Instruction} : Runs code (.script code line body)
  | inside {other : String} {line : Nat} {body : List Instruction} {i : Instruction} :
      i ∈ body → i.Runs code → Runs code (.script other line body)

theorem Instruction.Runs.assigns {code name value : String} {i : Instruction} (runs : i.Runs code)
    (read : Statement.read code = .assign name value) : i.Assigns name := by
  induction runs with
  | here => exact .here read
  | inside member _ ih => exact .inside member ih

namespace Render

section

variable {A : String → Prop} {e : Evaluator} (id : String) (settings : RenderSettings)

mutual

theorem step_extends (i : Instruction) (previous : Branch) (p : Progress)
    (ends : ∀ code, i.Runs code → ∀ (c : Context) previous hasBlock,
      (e.execute code c previous hasBlock).Ends A (c.Extends A)) :
    p.context.Extends A (step e id settings i previous p).2.context := by
  match i with
  | .script code line body =>
      have blocks : ∀ (c : Context) b, c.Extends A (block e id settings body c b).2.1 := by
        intro c b
        exact steps_extends body .idle ⟨c, b⟩ fun i member code runs =>
          ends code (.inside member runs)
      rw [context_step_script]
      exact (ends code .here p.context previous _).run blocks p.buffer
  | .text .. | .interpolated .. | .output .. | .element .. | .openTag .. | .closeTag ..
  | .filter .. =>
      rw [step_eq_write (by intro _ _ _ same; cases same)]
      exact .same A p.context

theorem steps_extends (is : List Instruction) (previous : Branch) (p : Progress)
    (ends : ∀ i ∈ is, ∀ code, i.Runs code → ∀ (c : Context) previous hasBlock,
      (e.execute code c previous hasBlock).Ends A (c.Extends A)) :
    p.context.Extends A (steps e id settings is previous p).2.context := by
  match is with
  | [] =>
      rw [steps]
      exact .same A p.context
  | i :: rest =>
      obtain ⟨here, others⟩ := List.forall_mem_cons.mp ends
      have first := step_extends i previous p here
      rw [steps]
      generalize step e id settings i previous p = ran at first
      obtain ⟨outcome, q⟩ := ran
      cases outcome with
      | error failure => exact first
      | ok branch => exact first.trans (steps_extends rest branch q others)

end

end

variable {A : String → Prop} (extra : List Function) (render : Evaluator.Expressions.Render)
  (id : String) (settings : RenderSettings)

/-- Instructions change no variables but those they assign to. -/
theorem steps_extends_assigned (is : List Instruction) (previous : Branch) (p : Progress)
    (assigned : ∀ i ∈ is, ∀ name, i.Assigns name → A name) :
    p.context.Extends A
      (steps (Evaluator.Expressions.evaluator extra render) id settings is previous p).2.context := by
  refine steps_extends id settings is previous p fun i member code runs c previous hasBlock => ?_
  simp only [Evaluator.Expressions.evaluator]
  exact Evaluator.Expressions.run_ends previous hasBlock fun name value read =>
    assigned i member name (runs.assigns read)

section

variable {extra render id settings} {code items : String} {targets : List String} {line : Nat}
  {body : List Instruction} {previous : Branch} {p q : Progress} {outcome : Except Error Branch}
  (loop : Statement.read code = .each targets items)
  (ran : step (Evaluator.Expressions.evaluator extra render) id settings (.script code line body)
    previous p = (outcome, q))

include loop ran

theorem each_reassigns : p.context.Reassigns
    (fun name => (∃ i ∈ body, i.Assigns name) ∧ name ∉ targets ∧ name ≠ "loop") q.context := by
  have blocks : ∀ (c : Context) b, c.Extends (fun name => ∃ i ∈ body, i.Assigns name)
      (block (Evaluator.Expressions.evaluator extra render) id settings body c b).2.1 := by
    intro c b
    exact steps_extends_assigned extra render id settings body .idle ⟨c, b⟩ fun i member name assigns =>
      ⟨i, member, assigns⟩
  have ends : ((Evaluator.Expressions.evaluator extra render).execute code p.context previous
      !body.isEmpty).Ends (fun name => ∃ i ∈ body, i.Assigns name) (p.context.Reassigns
        fun name => (∃ i ∈ body, i.Assigns name) ∧ name ∉ targets ∧ name ≠ "loop") := by
    simp only [Evaluator.Expressions.evaluator, loop, Evaluator.Expressions.run]
    exact Evaluator.Expressions.each_ends targets items _
  have last := ends.run blocks p.buffer
  have same : (step (Evaluator.Expressions.evaluator extra render) id settings
      (.script code line body) previous p).2.context = _ := context_step_script
  rw [← same, ran] at last
  exact last

/-- A loop leaves the scopes around it as they were, whether it comes to its end or an item or the
block fails: there are as many, its targets and `loop` stand for what they did, and no name is new.
What has changed are values that the block has assigned to names that were there before. -/
theorem each_leaves_scopes :
    q.context.scopes.length = p.context.scopes.length ∧
    (∀ name, name ∈ targets ∨ name = "loop" → q.context.lookup name = p.context.lookup name) ∧
    (∀ name, p.context.lookup name = none → q.context.lookup name = none) ∧
    (∀ name, q.context.lookup name ≠ p.context.lookup name → p.context.lookup name ≠ none ∧
      name ∉ targets ∧ name ≠ "loop" ∧ ∃ i ∈ body, i.Assigns name) ∧
    p.context.Reassigns
      (fun name => (∃ i ∈ body, i.Assigns name) ∧ name ∉ targets ∧ name ≠ "loop") q.context := by
  have change := each_reassigns loop ran
  have unbound := change.lookup_eq_none
  refine ⟨change.scopes.length_eq, ?_, fun name => (unbound name).mpr, ?_, change⟩
  · intro name own
    refine change.lookup_eq fun free => ?_
    rcases own with target | isLoop
    · exact free.2.1 target
    · exact free.2.2 isLoop
  · intro name differs
    have free : (∃ i ∈ body, i.Assigns name) ∧ name ∉ targets ∧ name ≠ "loop" := by
      by_contra bound
      exact differs (change.lookup_eq bound)
    have present : p.context.lookup name ≠ none := by
      intro absent
      exact differs (((unbound name).mpr absent).trans absent.symm)
    exact ⟨present, free.2.1, free.2.2, free.1⟩

end

end Render

/-! A loop that stops at its second item, which cannot be unpacked. -/

def Expr.isVar (name : String) : Except Fault Expr → Bool
  | .ok (.var found) => found == name
  | _ => false

theorem Expr.parse_of_isVar {code name : String} (read : isVar name (parse code) = true) :
    parse code = .ok (.var name) := by
  unfold isVar at read
  split at read
  · next parsed => rw [parsed, beq_iff_eq.mp read]
  · cases read

theorem Evaluator.Expressions.evaluate_var {extra : List Function} {render : Render} {name : String}
    (read : Expr.parse name = .ok (.var name)) (c : Context) :
    (evaluator extra render).evaluate name c =
      .ok ((Expr.Env.lookup? ⟨extra, c.bindings, render⟩ name).getD .undefined) := by
  simp only [evaluator, evaluate, read, Bind.bind, Except.bind, Expr.eval]
  rfl

theorem Render.step_assign {extra : List Function} {render : Evaluator.Expressions.Render}
    {id code name value : String} {settings : RenderSettings} {line : Nat} {previous : Branch}
    {c : Context} {b : Buffer} {v : Value} (read : Statement.read code = .assign name value)
    (given : (Evaluator.Expressions.evaluator extra render).evaluate value c = .ok v) :
    step (Evaluator.Expressions.evaluator extra render) id settings (.script code line []) previous
      ⟨c, b⟩ = (.ok .idle, ⟨c.assign name v, b⟩) := by
  simp only [Evaluator.Expressions.evaluator] at given
  simp only [step_script, Evaluator.Expressions.evaluator, read, Evaluator.Expressions.run, given,
    Script.run]

namespace Looping

def items : List Value := [.list [.int 1, .int 2], .undefined]

def context : Context :=
  (((Context.new (.expressions [])).bind "a" (.ofString "out")).bind "total" (.int 0)).bind "xs"
    (.list items)

def loopCode : String := "for a, b in xs"

def body : List Instruction :=
  [.script "total = a" 2 [], .script "a = b" 3 [], .script "made = b" 4 []]

def evaluator : Evaluator := Evaluator.Expressions.evaluator [] fun _ _ => .error .invalidOperation

def inside : Context :=
  (context.pushScope.bindAll [("a", .int 1), ("b", .int 2)]).bind "loop"
    (Evaluator.Expressions.loopValue 0 2)

def after : Context :=
  ((inside.assign "total" (.int 1)).assign "a" (.int 2)).assign "made" (.int 2)

def failure : Error := .evaluation none "undefined value"

theorem read_loop : Statement.read loopCode = .each ["a", "b"] "xs" := by decide +kernel

theorem block_body : Render.block evaluator "haml" Options.standard.renderSettings body inside .empty =
    (.ok (), after, .empty) := by
  have readFirst : Statement.read "total = a" = .assign "total" "a" := by decide +kernel
  have readSecond : Statement.read "a = b" = .assign "a" "b" := by decide +kernel
  have readThird : Statement.read "made = b" = .assign "made" "b" := by decide +kernel
  have a : Expr.parse "a" = .ok (.var "a") := Expr.parse_of_isVar (by decide +kernel)
  have b : Expr.parse "b" = .ok (.var "b") := Expr.parse_of_isVar (by decide +kernel)
  have first : evaluator.evaluate "a" inside = .ok (.int 1) :=
    Evaluator.Expressions.evaluate_var a inside
  have second : evaluator.evaluate "b" (inside.assign "total" (.int 1)) = .ok (.int 2) :=
    Evaluator.Expressions.evaluate_var b _
  have third : evaluator.evaluate "b" ((inside.assign "total" (.int 1)).assign "a" (.int 2)) =
      .ok (.int 2) := Evaluator.Expressions.evaluate_var b _
  simp only [evaluator] at first second third ⊢
  simp only [Render.block, body, Render.steps, Render.step_assign readFirst first,
    Render.step_assign readSecond second, Render.step_assign readThird third]
  rfl

def resume (outcome : Except Error Unit) (c : Context) : Script :=
  match outcome with
  | .error e => .done (.error e) c.popScope
  | .ok () => .done (.error failure) c.popScope

theorem step_loop : Render.step evaluator "haml" Options.standard.renderSettings
    (.script loopCode 1 body) .idle ⟨context, .empty⟩ =
      (.error failure, ⟨context.bind "total" (.int 1), .empty⟩) := by
  have xs : Expr.parse "xs" = .ok (.var "xs") := Expr.parse_of_isVar (by decide +kernel)
  have collection : evaluator.evaluate "xs" context = .ok (.list items) :=
    Evaluator.Expressions.evaluate_var xs context
  have script : evaluator.execute loopCode context .idle (!body.isEmpty) =
      .block inside resume := by
    simp only [evaluator, Evaluator.Expressions.evaluator] at collection
    simp only [evaluator, Evaluator.Expressions.evaluator, read_loop, Evaluator.Expressions.run,
      Evaluator.Expressions.each, collection]
    rfl
  simp only [Render.step_script, script, Script.run, block_body]
  rfl

end Looping

open Looping in
theorem Render.each_leaves_scopes_midway : ∃ outcome q,
    Statement.read loopCode = .each ["a", "b"] "xs" ∧
    step Looping.evaluator "haml" Options.standard.renderSettings (.script loopCode 1 body) .idle
      ⟨context, .empty⟩ = (outcome, q) ∧
    outcome = .error failure ∧ q.context.lookup "total" = some (.int 1) ∧
    q.context.scopes.length = context.scopes.length ∧
    q.context.lookup "a" = some (.ofString "out") ∧ q.context.lookup "loop" = none ∧
    q.context.lookup "made" = none := by
  obtain ⟨height, own, unbound, -⟩ := each_leaves_scopes read_loop step_loop
  refine ⟨_, _, read_loop, step_loop, rfl, rfl, height, ?_, ?_, ?_⟩
  · exact own "a" (.inl (List.mem_cons_self ..))
  · exact own "loop" (.inr rfl)
  · exact unbound "made" rfl

end Haml
