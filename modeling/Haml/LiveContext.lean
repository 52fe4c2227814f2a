import Haml.Context
/-! Contexts in use. They keep the bindings they have given out, to give them out again until a
variable, a scope or a partial has changed. -/

namespace Haml

structure LiveContext extends Context where
  /-- The bindings given out last, as long as they may be given out again. -/
  kept : Option Scope

namespace LiveContext

def ofContext (c : Context) : LiveContext := ⟨c, none⟩

def new (dialect : Dialect) (partials : Dict Template) (depth : Nat) : LiveContext :=
  ofContext { Context.new dialect with partials := partials, depth := depth }

def bind (c : LiveContext) (name : String) (value : Value) : LiveContext :=
  { c with inner := c.inner.insert name value, kept := none }

def assign (c : LiveContext) (name : String) (value : Value) : LiveContext :=
  if c.inner.contains name then { c with inner := c.inner.insert name value, kept := none }
  else if c.outer.any fun scope => scope.contains name then
    { c with outer := Context.assignIn name value c.outer, kept := none }
  else c.bind name value

def pushScope (c : LiveContext) : LiveContext :=
  { c with inner := [], outer := c.inner :: c.outer, kept := none }

/-- Drops the innermost scope. Where only the outermost is left, nothing changes. -/
def popScope (c : LiveContext) : LiveContext :=
  match c.outer with
  | [] => c
  | scope :: rest => { c with inner := scope, outer := rest, kept := none }

def addPartial (c : LiveContext) (name : String) (t : Template) : LiveContext :=
  { c with partials := c.partials.insert name t, kept := none }

def addMethod (c : LiveContext) (name : String) (t : Template) : LiveContext :=
  { c with methods := c.methods.insert name t }

/-- The bindings for expressions, built where none are kept, and the context that keeps them. -/
def bindings (c : LiveContext) : Scope × LiveContext :=
  match c.kept with
  | some scope => (scope, c)
  | none => (c.toContext.bindings, { c with kept := some c.toContext.bindings })

end LiveContext

end Haml
