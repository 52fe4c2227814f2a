import Haml.Datum.Yaml.Layout
/-! Nodes of a document in YAML: its scalars and collections, as its tokens give them. -/

namespace Haml.Yaml

structure Properties where
  /-- The number under which aliases find the node. -/
  anchor : Option Nat
  tag : Option String

inductive Node where
  | scalar (properties : Properties) (isPlain : Bool) (text : String)
  | list (properties : Properties) (items : List Node)
  | table (properties : Properties) (entries : List (Node × Node))
  | reference (number : Nat)

structure Document where
  tokens : List Token
  handles : List (String × String)
  anchors : List (String × Nat)

abbrev Parse := StateT Document Option

namespace Node

def empty : Node := .scalar ⟨none, none⟩ true ""

def peek : Parse (Option Token) := do return (← get).tokens.head?

def skip : Parse Unit := modify fun d => { d with tokens := d.tokens.drop 1 }

def accept (t : Token) : Parse Bool := do
  if (← peek) == some t then skip; return true else return false

def expect (t : Token) : Parse Unit := do
  if !(← accept t) then failure

def comesAny (ts : List Token) : Parse Bool := do
  return ((← peek).map ts.contains).getD false

/-! Properties -/

/-- Numbers an anchor by how many names are known. A name that is known keeps its place. -/
def setAnchor (name : String) : Parse Nat := do
  let d ← get
  let number := (d.anchors.map Prod.fst).eraseDups.length
  set { d with anchors := (name, number) :: d.anchors }
  return number

def anchor? : Parse (Option Nat) := do
  match ← peek with
  | some (.anchor name) => do
      skip
      return some (← setAnchor name)
  | _ => return none

def explain (t : Tag) : Parse String := do
  if t.handle.isEmpty then return t.suffix
  match (← get).handles.lookup t.handle with
  | some text => return text ++ t.suffix
  | none => failure

def tag? : Parse (Option String) := do
  match ← peek with
  | some (.tag t) => do
      skip
      return some (← explain t)
  | _ => return none

def properties : Parse Properties := do
  match ← anchor? with
  | some n => return ⟨some n, ← tag?⟩
  | none => do
      let tag ← tag?
      let anchor ← if tag.isSome then anchor? else pure none
      return ⟨anchor, tag⟩

def bare (p : Properties) : Parse Node :=
  if p.anchor.isSome || p.tag.isSome then return .scalar p true "" else failure

/-! Nodes -/

mutual

/-- Reads a node. Lists and tables whose extent indentation gives stand in blocks only, and a list
without indentation stands in a table only. -/
def node : Nat → Bool → Bool → Parse Node
  | 0, _, _ => failure
  | steps + 1, inBlock, inTable => do
      match ← peek with
      | some (.reference name) => do
          skip
          match (← get).anchors.lookup name with
          | some number => return .reference number
          | none => failure
      | _ => do
          let p ← properties
          match ← peek with
          | some (.scalar isPlain text) => do
              skip
              return .scalar p isPlain text
          | some .flowListStart => do
              skip
              return .list p (← flowItems steps true)
          | some .flowTableStart => do
              skip
              return .table p (← flowEntries steps true)
          | some .item => if inTable then return .list p (← looseItems steps) else bare p
          | some .listStart =>
              if inBlock then do
                skip
                return .list p (← items steps)
              else bare p
          | some .tableStart =>
              if inBlock then do
                skip
                return .table p (← entries steps)
              else bare p
          | _ => bare p

def nodeUnless : Nat → Bool → Bool → List Token → Parse Node
  | 0, _, _, _ => failure
  | steps + 1, inBlock, inTable, ends => do
      if ← comesAny ends then return empty else node steps inBlock inTable

def items : Nat → Parse (List Node)
  | 0 => failure
  | steps + 1 => do
      if ← accept .blockEnd then return []
      expect .item
      let n ← nodeUnless steps true false [.item, .blockEnd]
      return n :: (← items steps)

def looseItems : Nat → Parse (List Node)
  | 0 => failure
  | steps + 1 => do
      if ← accept .item then
        let n ← nodeUnless steps true false [.item, .key, .value, .blockEnd]
        return n :: (← looseItems steps)
      else return []

def entries : Nat → Parse (List (Node × Node))
  | 0 => failure
  | steps + 1 => do
      if ← accept .blockEnd then return []
      expect .key
      let ends := [.key, .value, .blockEnd]
      let k ← nodeUnless steps true true ends
      let v ← if ← accept .value then nodeUnless steps true true ends else pure empty
      return (k, v) :: (← entries steps)

def flowItems : Nat → Bool → Parse (List Node)
  | 0, _ => failure
  | steps + 1, isFirst => do
      if ← accept .flowListEnd then return []
      if !isFirst then expect .comma
      if ← accept .flowListEnd then return []
      let n ←
        if ← accept .key then do pure (.table ⟨none, none⟩ [← flowPair steps])
        else node steps false false
      return n :: (← flowItems steps false)

/-- Reads the key and the value of a pair in a flow list. A missing key takes the token after it
along. -/
def flowPair : Nat → Parse (Node × Node)
  | 0 => failure
  | steps + 1 => do
      let k ←
        if ← comesAny [.value, .comma, .flowListEnd] then do
          skip
          pure empty
        else node steps false false
      let v ←
        if ← accept .value then nodeUnless steps false false [.comma, .flowListEnd]
        else pure empty
      return (k, v)

def flowEntries : Nat → Bool → Parse (List (Node × Node))
  | 0, _ => failure
  | steps + 1, isFirst => do
      if ← accept .flowTableEnd then return []
      if !isFirst then expect .comma
      if ← accept .flowTableEnd then return []
      let ends := [.comma, .flowTableEnd]
      let e ←
        if ← accept .key then do
          let k ← nodeUnless steps false false (.value :: ends)
          let v ← if ← accept .value then nodeUnless steps false false ends else pure empty
          pure (k, v)
        else do pure (← node steps false false, empty)
      return e :: (← flowEntries steps false)

end

/-! Documents -/

def isVersion : Directive → Bool
  | .version .. => true
  | .handle .. => false

/-- Takes note of a directive. There is one version at most, which is 1.1 or 1.2, and handles are
explained once. -/
def addDirective (seen : List Directive) (d : Directive) : Parse Unit := do
  match d with
  | .version major minor =>
      if seen.any isVersion || major != 1 || (minor != 1 && minor != 2) then failure
  | .handle name text =>
      if ((← get).handles.lookup name).isSome then failure
      modify fun s => { s with handles := (name, text) :: s.handles }

def directives : Nat → List Directive → Parse (List Directive)
  | 0, _ => failure
  | steps + 1, seen => do
      match ← peek with
      | some (.directive d) => do
          skip
          addDirective seen d
          directives steps (d :: seen)
      | _ => return seen

def handles : List (String × String) := [("!", "!"), ("!!", "tag:yaml.org,2002:")]

def isDirective : Token → Bool
  | .directive _ => true
  | _ => false

/-- Reads a document. One with directives starts with its mark, behind which it may be empty. -/
def document (steps : Nat) : Parse Node := do
  let seen ← directives steps []
  modify fun d => { d with handles := d.handles ++ handles }
  if ← accept .documentStart then
    match ← peek with
    | none => return empty
    | some t =>
        if isDirective t || t == .documentStart || t == .documentEnd then return empty
        else node steps true false
  else if seen.isEmpty then node steps true false
  else failure

def ofTokens? (ts : List Token) : Option Node := do
  let (n, d) ← (document (4 * ts.length + 4)).run ⟨ts, [], []⟩
  if d.tokens.all (· == .documentEnd) then return n else none

end Node

end Haml.Yaml
