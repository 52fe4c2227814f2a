import Haml.Value
/-! Equality and order of values. Numbers and truth values compare by magnitude, containers item by
item, and values of different kinds by their kind. -/

namespace Haml.Value

def isSmall (n : Int) : Bool := Decimal.fitsSigned 128 n

def toInt? : Value → Option Int
  | bool b => some (if b then 1 else 0)
  | int n => if isSmall n then some n else none
  | float x =>
      match Decimal.Double.ofFloat x with
      | .finite value =>
          let n := value.truncate
          if value.isWhole && Decimal.fitsSigned 64 n then some n else none
      | _ => none
  | _ => none

/-- The double that a value stands for; an integer that it would round only if `lossy`. -/
def toFloat? (lossy : Bool) : Value → Option Float
  | bool b => some (if b then 1 else 0)
  | int n =>
      let x := Decimal.ofInt n
      let exact := match Decimal.Double.ofFloat x with
        | .finite value => value.truncate == n
        | _ => false
      if lossy || exact then some x else none
  | float x => some x
  | _ => none

inductive Pair where
  | ints (a b : Int)
  | floats (a b : Float)
  | texts (a b : String)

def coerce (lossy : Bool) (a b : Value) : Option Pair :=
  match a, b with
  | text s _, text t _ => some (.texts s t)
  | float x, b => (toFloat? lossy b).map (.floats x ·)
  | a, float y => (toFloat? lossy a).map (.floats · y)
  | a, b =>
      match toInt? a, toInt? b with
      | some m, some n => some (.ints m n)
      | _, _ => none

/-- Whether two values other than containers are equal; `none` if one is a container. -/
def scalarEq? (a b : Value) : Option Bool :=
  match a, b with
  | null, null => some true
  | undefined, undefined => some true
  | a, b =>
      match coerce false a b with
      | some (.texts s t) => some (s == t)
      | some (.ints m n) => some (m == n)
      | some (.floats x y) => some (x == y)
      | none => none

def compareFloats (x y : Float) : Ordering :=
  if x < y then .lt else if y < x then .gt else if x == y then .eq
  else compare x.isNaN y.isNaN

mutual

def compare (a b : Value) : Ordering :=
  if a.kind != b.kind then Ord.compare a.kind.rank b.kind.rank
  else
    match a with
    | list xs =>
        match b with
        | list ys => compareAll xs ys
        | _ => .eq
    | iter xs _ =>
        match b with
        | iter ys _ => compareAll xs ys
        | _ => .eq
    | map xs =>
        match b with
        | map ys => compareEntries xs ys
        | renderer .. => if xs.isEmpty then .eq else .gt
        | _ => .eq
    | renderer .. =>
        match b with
        | map ys => if ys.isEmpty then .eq else .lt
        | _ => .eq
    | a =>
        match coerce false a b with
        | some (.texts s t) => Ord.compare s t
        | some (.ints m n) => Ord.compare m n
        | some (.floats x y) => compareFloats x y
        | none => .eq

def compareAll : List Value → List Value → Ordering
  | [], [] => .eq
  | [], _ :: _ => .lt
  | _ :: _, [] => .gt
  | x :: xs, y :: ys => (compare x y).then (compareAll xs ys)

def compareEntries : List (Value × Value) → List (Value × Value) → Ordering
  | [], [] => .eq
  | [], _ :: _ => .lt
  | _ :: _, [] => .gt
  | (k, v) :: xs, (l, w) :: ys => (compare k l).then ((compare v w).then (compareEntries xs ys))

end

def atKey? (key : Value) : List (Value × Value) → Option Value
  | [] => none
  | (k, v) :: rest => if compare k key == .eq then some v else atKey? key rest

def insertEntry (key value : Value) : List (Value × Value) → List (Value × Value)
  | [] => [(key, value)]
  | (k, v) :: rest =>
      match compare key k with
      | .lt => (key, value) :: (k, v) :: rest
      | .eq => (k, value) :: rest
      | .gt => (k, v) :: insertEntry key value rest

def ofEntries (entries : List (Value × Value)) : Value :=
  .map (entries.foldl (fun m (k, v) => insertEntry k v m) [])

mutual

def equal (a b : Value) : Bool :=
  match a with
  | list xs =>
      match b with
      | list ys | iter ys _ => equalAll xs ys
      | _ => false
  | iter xs _ =>
      match b with
      | list ys | iter ys _ => equalAll xs ys
      | _ => false
  | map xs =>
      match b with
      | map ys => xs.length == ys.length && equalEntries xs ys
      | renderer .. => xs.isEmpty
      | _ => false
  | renderer .. =>
      match b with
      | map ys => ys.isEmpty
      | renderer .. => true
      | _ => false
  | a => (scalarEq? a b).getD false

def equalAll : List Value → List Value → Bool
  | [], [] => true
  | x :: xs, y :: ys => equal x y && equalAll xs ys
  | _, _ => false

def equalEntries : List (Value × Value) → List (Value × Value) → Bool
  | [], _ => true
  | (k, v) :: rest, ys =>
      (match atKey? k ys with
        | some w => equal v w
        | none => false) && equalEntries rest ys

end

end Haml.Value
