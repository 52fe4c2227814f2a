import Haml.Evaluator.Echo
import Haml.Evaluator.Expressions
import Haml.Render
/-! Partials: templates that expressions render by name, and with them the evaluator of each
dialect. -/

namespace Haml

namespace Renderer

def maxDepth : Nat := 16

def refused {α : Type} (reason : String) : Except Fault α := .error (.refused reason)

def arguments : List Value → Except Fault (String × Option Value)
  | [.text name _] => .ok (name, none)
  | [.text name _, locals] => .ok (name, some locals)
  | [_] | [_, _] => refused "partial name must be a string"
  | _ => refused "render expects a partial name and optional locals"

def localsOf : Option Value → Except Fault (List (String × Value))
  | none => .ok []
  | some locals => do
      (← locals.items).mapM fun key => return (key.display, ← locals.getItem key)

/-- The context in which a partial is rendered: one scope, where its own variables hide those passed
on. -/
def context (r : Renderer Value) (locals : List (String × Value)) : Context :=
  ({ Context.new r.dialect with partials := r.partials, depth := r.depth + 1 }.bindAll
    r.bindings).bindAll locals

/-- Renders a partial, given how a template is rendered. Its output is markup. -/
def call (render : Template → Context → Except Error String) (r : Renderer Value)
    (args : List Value) : Except Fault Value := do
  let (name, locals) ← arguments args
  let some template := r.partials.find? name
    | throw (.inPartial (.missingPartial name none))
  if maxDepth ≤ r.depth then
    throw (.inPartial (.evaluation none ("partial `" ++ name ++ "` exceeded the recursion limit of " ++
      toString maxDepth)))
  let text ← (render template (r.context (← localsOf locals))).mapError Fault.inPartial
  return .text text true

end Renderer

/-- The evaluator of a dialect, in which at most `nested` renders of partials may stand inside one
another. A `render` function kept in a variable counts its depth from where it was taken, so depth
alone does not bound them. -/
def Dialect.evaluatorWithin : Nat → Dialect → Evaluator
  | _, .echo => Evaluator.Echo.evaluator
  | 0, .expressions extra =>
      Evaluator.Expressions.evaluator extra fun r args =>
        r.call (fun _ _ => .error (.evaluation none "partials are nested too deeply")) args
  | nested + 1, .expressions extra =>
      Evaluator.Expressions.evaluator extra fun r args =>
        r.call (fun t c => (t.run (evaluatorWithin nested c.dialect) c).1) args

def Dialect.maxNested : Nat := 1000

def Dialect.evaluator (d : Dialect) : Evaluator := d.evaluatorWithin maxNested

def Context.evaluator (c : Context) : Evaluator := c.dialect.evaluator

def Template.execute (t : Template) (c : Context) : Except Error String × Context :=
  t.run c.evaluator c

/-- Renders a template into a sink, which gets the whole text once there is no more to fail. -/
def Template.executeInto {σ : Type} (t : Template) (c : Context) (write : σ → String → σ)
    (sink : σ) : Except Error Unit × Context × σ :=
  match Render.steps c.evaluator t.id t.settings t.instructions .idle ⟨c, .empty⟩ with
  | (.ok (), p) => (.ok (), p.context, write sink (String.ofList p.buffer.text))
  | (.error e, p) => (.error e, p.context, sink)

def Template.render (t : Template) (c : Context) : Except Error String := (t.execute c).1

def Context.callMethod (c : Context) (name : String) : Except Error String × Context :=
  match c.methods.find? name with
  | some t => t.execute c
  | none => (.error (.undefinedMethod name), c)

end Haml
