import Haml.Decimal.Text
import Haml.Dict
import Haml.Template
/-! Values: what expressions evaluate to, their kinds, order and text. -/

namespace Haml

/-- The functions that expressions can call by name. -/
inductive Function where
  | range
  | dict
  | raise
  | shout
  deriving DecidableEq, Repr

inductive Dialect where
  /-- The expression language, with functions beside the standard ones. -/
  | expressions (extra : List Function)
  /-- Code stands for itself in upper case. -/
  | echo
  deriving DecidableEq, Repr

/-- The function that renders partials: those it knows, how deep it stands in renders of them, and
the variables it passes on. -/
structure Renderer (α : Type) where
  dialect : Dialect
  depth : Nat
  partials : Dict Template
  bindings : List (String × α)

inductive Value where
  | undefined
  | null
  | bool (value : Bool)
  | int (value : Int)
  | float (value : Float)
  /-- A text, safe if it is markup already. -/
  | text (value : String) (safe : Bool)
  | list (items : List Value)
  /-- Items that are only gone through in order; `sized` if their number is known beforehand. -/
  | iter (items : List Value) (sized : Bool)
  /-- Entries in the order of their keys. -/
  | map (entries : List (Value × Value))
  | function (name : Function)
  | renderer (render : Renderer Value)
  deriving Inhabited

/-- The kinds of values, in the order in which values of different kinds are sorted. -/
inductive Kind where
  | undefined
  | none
  | bool
  | number
  | string
  | sequence
  | map
  | iterator
  | plain
  deriving DecidableEq, Repr

def Kind.text : Kind → String
  | undefined => "undefined"
  | none => "none"
  | bool => "bool"
  | number => "number"
  | string => "string"
  | sequence => "sequence"
  | map => "map"
  | iterator => "iterator"
  | plain => "plain object"

def Kind.rank (k : Kind) : Nat := k.ctorIdx

namespace Value

def ofString (s : String) : Value := .text s false

def ofChar (c : Char) : Value := .text (String.singleton c) false

def kind : Value → Kind
  | undefined => .undefined
  | null => .none
  | bool _ => .bool
  | int _ | float _ => .number
  | text .. => .string
  | list _ => .sequence
  | iter .. => .iterator
  | map _ => .map
  | function _ => .plain
  | renderer .. => .map

def isSafe : Value → Bool
  | text _ safe => safe
  | _ => false

def isAbsent : Value → Bool
  | undefined | null => true
  | _ => false

def size? : Value → Option Nat
  | text s _ => some s.length
  | list items => some items.length
  | iter items sized => if sized then some items.length else none
  | map entries => some entries.length
  | renderer .. => some 0
  | _ => none

def isTrue : Value → Bool
  | undefined | null => false
  | bool b => b
  | int n => n != 0
  | float x => x != 0
  | text s _ => !s.isEmpty
  | list items => !items.isEmpty
  | iter items sized => !sized || !items.isEmpty
  | map entries => !entries.isEmpty
  | function _ => true
  | renderer .. => false

/-- What going through a value gives: characters of a text, keys of a map; nothing for an absent
value. -/
def items? : Value → Option (List Value)
  | undefined | null => some []
  | text s _ => some (s.toList.map ofChar)
  | list items | iter items _ => some items
  | map entries => some (entries.map Prod.fst)
  | renderer .. => some []
  | _ => none

end Value

end Haml
