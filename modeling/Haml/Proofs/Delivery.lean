import Haml.Proofs.Loops
/-! Delivery: what a render gives its sink, and the context it leaves. Scopes that loops push are
popped wherever a run ends, so a failure leaves as many as a success. -/

namespace Haml

open Context

/-- Whether a context has the height of another one, and what is not in its scopes is the same. -/
structure Context.Balanced (c d : Context) : Prop where
  scopes : d.scopes.length = c.scopes.length
  partials : d.partials = c.partials
  methods : d.methods = c.methods
  dialect : d.dialect = c.dialect
  depth : d.depth = c.depth

theorem Context.Balanced.same (c : Context) : c.Balanced c := ⟨rfl, rfl, rfl, rfl, rfl⟩

theorem Context.Extends.balanced {A : String → Prop} {c d : Context} (change : c.Extends A d) :
    c.Balanced d where
  scopes := by
    have below := change.outer.length_eq
    simp [Context.scopes, below]
  partials := change.partials
  methods := change.methods
  dialect := change.dialect
  depth := change.depth

def Evaluator.PopsScopes (e : Evaluator) : Prop :=
  ∀ code (c : Context) previous hasBlock,
    (e.execute code c previous hasBlock).Ends (fun _ => True) (c.Extends fun _ => True)

namespace Evaluator

theorem Echo.popsScopes : Echo.evaluator.PopsScopes := by
  intro code c previous hasBlock
  cases hasBlock with
  | false => exact .done (.same _ c)
  | true =>
      -- A block that succeeds is run once more.
      refine .block fun outcome d first => ?_
      cases outcome with
      | error failure => exact .done first
      | ok done =>
          have again := Script.Ends.once (A := fun _ => True) (c := d) .idle true
          exact again.mono fun last second => first.trans second

theorem Expressions.popsScopes (extra : List Function) (render : Expressions.Render) :
    (Expressions.evaluator extra render).PopsScopes := by
  intro code c previous hasBlock
  simp only [Expressions.evaluator]
  exact Expressions.run_ends previous hasBlock fun _ _ _ => trivial

end Evaluator

theorem Dialect.popsScopes (d : Dialect) (nested : Nat) : (d.evaluatorWithin nested).PopsScopes := by
  cases d with
  | echo =>
      simp only [Dialect.evaluatorWithin]
      exact Evaluator.Echo.popsScopes
  | expressions extra =>
      cases nested with
      | zero =>
          simp only [Dialect.evaluatorWithin]
          exact Evaluator.Expressions.popsScopes extra _
      | succ nested =>
          simp only [Dialect.evaluatorWithin]
          exact Evaluator.Expressions.popsScopes extra _

/-- Whatever a run comes to, and wherever it stops, it leaves its context balanced. -/
theorem Render.steps_balanced {e : Evaluator} (pops : e.PopsScopes) (id : String)
    (settings : RenderSettings) (is : List Instruction) (previous : Branch) (p : Progress) :
    p.context.Balanced (steps e id settings is previous p).2.context := by
  have change := steps_extends id settings is previous p fun _ _ code _ c previous hasBlock =>
    pops code c previous hasBlock
  exact change.balanced

namespace Template

variable {t : Template} {c d : Context} {outcome : Except Error Unit} {writes : List String}

/-- What a render can give its sink: the whole text in one piece, or nothing if it fails. -/
inductive Delivers (t : Template) (c : Context) : Except Error Unit → List String → Prop
  | whole {text : String} : t.render c = .ok text → Delivers t c (.ok ()) [text]
  | nothing {failure : Error} : t.render c = .error failure → Delivers t c (.error failure) []

/-- Whether a render gives any sink `writes`, one after the other, and leaves the context `d`. -/
structure Settles (t : Template) (c : Context) (outcome : Except Error Unit) (writes : List String)
    (d : Context) : Prop where
  given : ∀ (σ : Type) (write : σ → String → σ) (sink : σ),
    t.executeInto c write sink = (outcome, d, writes.foldl write sink)
  delivers : t.Delivers c outcome writes
  balanced : c.Balanced d

theorem execute_eq (t : Template) (c : Context) :
    t.execute c =
      let ran := Render.steps c.evaluator t.id t.settings t.instructions .idle ⟨c, .empty⟩
      (ran.1.map fun _ => String.ofList ran.2.buffer.text, ran.2.context) := rfl

theorem settles (t : Template) (c : Context) : ∃ outcome writes d, t.Settles c outcome writes d := by
  have balanced := Render.steps_balanced (c.dialect.popsScopes Dialect.maxNested) t.id t.settings
    t.instructions .idle ⟨c, .empty⟩
  have text : t.render c = _ := congrArg Prod.fst (t.execute_eq c)
  change c.Balanced (Render.steps c.evaluator t.id t.settings t.instructions .idle
    ⟨c, .empty⟩).2.context at balanced
  cases ran : Render.steps c.evaluator t.id t.settings t.instructions .idle ⟨c, .empty⟩ with
  | mk outcome p =>
      rw [ran] at balanced text
      cases outcome with
      | ok done =>
          refine ⟨.ok (), [String.ofList p.buffer.text], p.context, ?_, .whole text, balanced⟩
          intro σ write sink
          simp only [executeInto, ran, List.foldl]
      | error failure =>
          refine ⟨.error failure, [], p.context, ?_, .nothing text, balanced⟩
          intro σ write sink
          simp only [executeInto, ran, List.foldl]

/-- To render for the text is to render into a string that takes each piece at its end. -/
theorem execute_eq_executeInto (t : Template) (c : Context) :
    t.execute c =
      let ran := t.executeInto c (· ++ ·) ""
      (ran.1.map fun _ => ran.2.2, ran.2.1) := by
  rw [execute_eq]
  unfold executeInto
  cases Render.steps c.evaluator t.id t.settings t.instructions .idle ⟨c, .empty⟩ with
  | mk outcome p =>
      cases outcome with
      | ok done => simp [Except.map]
      | error failure => rfl

theorem Settles.execute_eq (settled : t.Settles c outcome writes d) :
    t.execute c = (outcome.map fun _ => String.join writes, d) := by
  simp only [execute_eq_executeInto, settled.given]
  rfl

end Template

inductive Context.Answers (c : Context) (name : String) :
    Except Error Unit → List String → Context → Prop
  | method {t : Template} {outcome : Except Error Unit} {writes : List String} {d : Context} :
      c.methods.find? name = some t → t.Settles c outcome writes d → Answers c name outcome writes d
  | missing : c.methods.find? name = none → Answers c name (.error (.undefinedMethod name)) [] c

theorem Context.Answers.balanced {c d : Context} {name : String} {outcome : Except Error Unit}
    {writes : List String} (answer : c.Answers name outcome writes d) : c.Balanced d := by
  cases answer with
  | method _ settled => exact settled.balanced
  | missing _ => exact .same c

theorem Context.callMethod_answers (c : Context) (name : String) :
    ∃ outcome writes d, c.Answers name outcome writes d ∧
      c.callMethod name = (outcome.map fun _ => String.join writes, d) := by
  cases found : c.methods.find? name with
  | none =>
      refine ⟨_, _, _, .missing found, ?_⟩
      simp only [callMethod, found]
      rfl
  | some t =>
      obtain ⟨outcome, writes, d, settled⟩ := t.settles c
      refine ⟨outcome, writes, d, .method found settled, ?_⟩
      simp only [callMethod, found]
      exact settled.execute_eq

/-- A render is all or nothing to its sink and balanced to its context, and so is a call of a
method: any sink gets the whole text of a success in one piece and nothing of a failure, and either
way the context is left with as many scopes as it had, the same partials and the same methods. -/
theorem Context.executeInto_callMethod_settle (c : Context) :
    (∀ t : Template, ∃ outcome writes d, t.Settles c outcome writes d) ∧
    ∀ name, ∃ outcome writes d, c.Answers name outcome writes d ∧ c.Balanced d ∧
      c.callMethod name = (outcome.map fun _ => String.join writes, d) := by
  refine ⟨fun t => t.settles c, fun name => ?_⟩
  obtain ⟨outcome, writes, d, answer, called⟩ := c.callMethod_answers name
  exact ⟨outcome, writes, d, answer, answer.balanced, called⟩

end Haml
