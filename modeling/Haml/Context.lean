import Haml.Value
/-! Contexts: the variables a render sees, and the templates it can call by name. -/

namespace Haml

abbrev Scope := Dict Value

/-- There is always an innermost scope, which takes new variables. -/
structure Context where
  dialect : Dialect
  inner : Scope
  /-- The scopes around the innermost one, nearest first. -/
  outer : List Scope
  partials : Dict Template
  methods : Dict Template
  /-- The number of renders of partials around this one. -/
  depth : Nat

namespace Context

def new (dialect : Dialect) : Context := ⟨dialect, [], [], [], [], 0⟩

def scopes (c : Context) : List Scope := c.inner :: c.outer

def bind (c : Context) (name : String) (value : Value) : Context :=
  { c with inner := c.inner.insert name value }

def bindAll (c : Context) (entries : List (String × Value)) : Context :=
  entries.foldl (fun c (name, value) => c.bind name value) c

def lookup (c : Context) (name : String) : Option Value :=
  c.scopes.findSome? fun scope => scope.find? name

def assignIn (name : String) (value : Value) : List Scope → List Scope
  | [] => []
  | scope :: rest =>
      if scope.contains name then scope.insert name value :: rest
      else scope :: assignIn name value rest

/-- Assigns to the innermost variable of a name, or else binds it in the innermost scope. -/
def assign (c : Context) (name : String) (value : Value) : Context :=
  if c.inner.contains name || !c.outer.any fun scope => scope.contains name then c.bind name value
  else { c with outer := assignIn name value c.outer }

def pushScope (c : Context) : Context := { c with inner := [], outer := c.inner :: c.outer }

/-- Drops the innermost scope. The outermost scope stays. -/
def popScope (c : Context) : Context :=
  match c.outer with
  | [] => c
  | scope :: rest => { c with inner := scope, outer := rest }

def flatten : List Scope → Scope
  | [] => []
  | scope :: rest => Dict.merge (flatten rest) scope

def visible (c : Context) : Scope := flatten c.scopes

def renderer (c : Context) : Renderer Value := ⟨c.dialect, c.depth, c.partials, c.visible⟩

/-- Whether a name has a value; an undefined one is none. -/
def defines (scope : Scope) (name : String) : Bool :=
  match scope.find? name with
  | none | some .undefined => false
  | some _ => true

/-- What expressions see: the visible variables, and `render` where partials are known and no
variable of that name has a value. -/
def bindings (c : Context) : Scope :=
  if c.partials.isEmpty || defines c.visible "render" then c.visible
  else c.visible.insert "render" (.renderer c.renderer)

def addPartial (c : Context) (name : String) (t : Template) : Context :=
  { c with partials := c.partials.insert name t }

def addMethod (c : Context) (name : String) (t : Template) : Context :=
  { c with methods := c.methods.insert name t }

theorem popScope_pushScope (c : Context) : c.pushScope.popScope = c := rfl

theorem lookup_bind (c : Context) (name other : String) (value : Value) :
    (c.bind name value).lookup other = if name = other then some value else c.lookup other := by
  by_cases h : name = other <;>
    simp [lookup, bind, scopes, List.findSome?_cons, Dict.find?_insert, h]

end Context

end Haml
