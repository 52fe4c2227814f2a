import Haml.Value.Access
/-! The arguments of filters, tests and functions, and how they are taken. -/

namespace Haml.Expr

structure Args where
  values : List Value
  /-- The named arguments, if any are given by name. -/
  named : Option (List (String × Value))

namespace Args

def none : Args := ⟨[], Option.none⟩

def ofValues (values : List Value) : Args := ⟨values, Option.none⟩

def namedMap (entries : List (String × Value)) : Value :=
  Value.ofEntries (entries.map fun (k, v) => (Value.ofString k, v))

def all (a : Args) : List Value :=
  a.values ++ (a.named.map namedMap).toList

def named? (a : Args) (name : String) : Option Value := (a.named.getD []).lookup name

def allow (a : Args) (names : List String) : Except Fault Unit :=
  match (a.named.getD []).find? fun (n, _) => n ∉ names with
  | some (n, _) => .error (.unknownArgument n)
  | Option.none => .ok ()

def atMost (most : Nat) (values : List Value) : Except Fault (List Value) :=
  if most < values.length then .error .tooManyArguments else .ok values

def optional (values : List Value) (i : Nat) : Option Value :=
  match values[i]? with
  | some v => if v.isAbsent then Option.none else some v
  | Option.none => Option.none

def required (values : List Value) (i : Nat) : Except Fault Value :=
  match values[i]? with
  | some v => .ok v
  | Option.none => .error .missingArgument

def text (values : List Value) (i : Nat) : Except Fault String := Value.display <$> required values i

def optionalText (values : List Value) (i : Nat) : Option String :=
  (optional values i).map Value.display

def toBool : Value → Except Fault Bool
  | .bool b => .ok b
  | v => .error (.notConvertible v.kind "bool")

def toWord (bits : Nat) (target : String) (v : Value) : Except Fault Int :=
  match v.toInt? with
  | some n =>
      if Decimal.fitsSigned bits n then .ok n
      else .error (.notConvertible v.kind target)
  | Option.none => .error (.notConvertible v.kind target)

def optionalWord (bits : Nat) (target : String) (values : List Value) (i : Nat) :
    Except Fault (Option Int) :=
  match optional values i with
  | some v => some <$> toWord bits target v
  | Option.none => .ok Option.none

def flag (a : Args) (name : String) : Except Fault Bool :=
  match a.named? name with
  | some v => if v.isAbsent then .ok false else toBool v
  | Option.none => .ok false

end Args

end Haml.Expr
