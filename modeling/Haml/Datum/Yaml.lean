import Haml.Datum.Yaml.Node
import Haml.Datum.Yaml.Scalar
/-! Data in YAML. -/

namespace Haml.Yaml

/-! Aliases -/

abbrev Targets := List (Nat × Node)

namespace Node

def addTarget (p : Properties) (n : Node) (ts : Targets) : Targets :=
  match p.anchor with
  | some number => (number, n) :: ts
  | none => ts

mutual

def addTargets (ts : Targets) : Node → Targets
  | scalar p isPlain text => addTarget p (scalar p isPlain text) ts
  | list p items => addItems (addTarget p (list p items) ts) items
  | table p entries => addEntries (addTarget p (table p entries) ts) entries
  | reference _ => ts

def addItems (ts : Targets) : List Node → Targets
  | [] => ts
  | n :: ns => addItems (addTargets ts n) ns

def addEntries (ts : Targets) : List (Node × Node) → Targets
  | [] => ts
  | (k, v) :: es => addEntries (addTargets (addTargets ts k) v) es

end

mutual

def size : Node → Nat
  | scalar .. | reference _ => 1
  | list _ items => itemsSize items + 2
  | table _ entries => entriesSize entries + 2

def itemsSize : List Node → Nat
  | [] => 0
  | n :: ns => size n + itemsSize ns

def entriesSize : List (Node × Node) → Nat
  | [] => 0
  | (k, v) :: es => size k + size v + entriesSize es

end

/-! Data -/

abbrev Follow := StateT Nat Option

def follow (targets : Targets) (n : Node) : Follow Node := do
  match n with
  | reference number => do
      match ← get with
      | 0 => failure
      | left + 1 => set left
      match targets.lookup number with
      | some n => return n
      | none => failure
  | n => return n

def keyText (targets : Targets) (n : Node) : Follow String := do
  match ← n.follow targets with
  | scalar _ _ text => return text
  | _ => failure

def scalarDatum (p : Properties) (isPlain : Bool) (text : String) : Option Datum :=
  match p.tag with
  | some tag => resolveAs tag text
  | none => if isPlain then resolve text.toList else some (.text text)

def isForeign (p : Properties) : Bool := (p.tag.map (·.startsWith "!")).getD false

def datum (targets : Targets) : Nat → Node → Follow Datum
  | 0, n => do
      match ← n.follow targets with
      | scalar p isPlain text => scalarDatum p isPlain text
      | _ => failure
  | depth + 1, n => do
      match ← n.follow targets with
      | scalar p isPlain text => scalarDatum p isPlain text
      | list p items =>
          if isForeign p then failure
          return .list (← items.mapM fun n => datum targets depth n)
      | table p entries =>
          if isForeign p then failure
          let es ← entries.mapM fun (k, v) => do
            let name ← keyText targets k
            return (name, ← datum targets depth v)
          return .ofEntries es
      | reference _ => failure

end Node

def depthLimit : Nat := 128

def aliasLimit : Nat := 100

def read (source : String) : Option Datum := do
  let cs := lineFeeds source.toList
  if !cs.all isAllowed then none
  let ts ← tokens? cs
  if ts.isEmpty then return .null
  let n ← Node.ofTokens? ts
  return (← (n.datum (n.addTargets []) depthLimit).run (aliasLimit * n.size)).1

end Haml.Yaml
