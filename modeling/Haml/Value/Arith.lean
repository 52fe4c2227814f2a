import Haml.Expr.Fault
import Haml.Value.Order
import Haml.Value.Text
/-! Arithmetic on values. Integers have 128 bits; a result beyond that has no value. -/

namespace Haml.Value

def bounded (op : String) (a b : Value) (n : Int) : Except Fault Value :=
  if isSmall n then .ok (int n) else .error (.uncomputable op a.display b.display)

def failed (op : String) (a b : Value) : Except Fault Value :=
  .error (.uncomputable op a.display b.display)

def unsupported (op : String) (a b : Value) : Except Fault Value :=
  .error (.unsupportedOperands op a.kind b.kind)

def sequence? : Value → Option (List Value × Bool)
  | list items => some (items, true)
  | iter items sized => some (items, sized)
  | _ => none

def add (a b : Value) : Except Fault Value :=
  match sequence? a, sequence? b with
  | some (xs, m), some (ys, n) => .ok (iter (xs ++ ys) (m && n))
  | _, _ =>
      match coerce true a b with
      | some (.ints m n) => bounded "+" a b (m + n)
      | some (.floats x y) => .ok (float (x + y))
      | some (.texts s t) => .ok (ofString (s ++ t))
      | none => unsupported "+" a b

def sub (a b : Value) : Except Fault Value :=
  match coerce true a b with
  | some (.ints m n) => bounded "-" a b (m - n)
  | some (.floats x y) => .ok (float (x - y))
  | _ => unsupported "-" a b

def toCount? (v : Value) : Option Nat :=
  match toInt? v with
  | some n => if Decimal.fitsUnsigned 64 n then some n.toNat else none
  | none => none

def repeatText (s : String) (n : Nat) : String :=
  String.ofList (List.replicate n s.toList).flatten

def mul (a b : Value) : Except Fault Value :=
  match a, b with
  | text s _, n | n, text s _ =>
      match toCount? n with
      | some n => .ok (ofString (repeatText s n))
      | none => .error (.refused "strings can only be multiplied with integers")
  | a, b =>
      match sequence? a, sequence? b with
      | some (xs, sized), _ => times xs sized b
      | _, some (xs, sized) => times xs sized a
      | _, _ =>
          match coerce true a b with
          | some (.ints m n) => bounded "*" a b (m * n)
          | some (.floats x y) => .ok (float (x * y))
          | _ => unsupported "*" a b
where
  times (xs : List Value) (sized : Bool) (n : Value) : Except Fault Value :=
    match toCount? n with
    | some n => .ok (iter (List.replicate n xs).flatten sized)
    | none => .error (.refused "sequences and iterables can only be multiplied with integers")

def div (a b : Value) : Except Fault Value :=
  match toFloat? true a, toFloat? true b with
  | some x, some y => .ok (float (x / y))
  | _, _ => unsupported "/" a b

def divFloats (x y : Float) : Float :=
  let q := x / y
  let whole := if q < 0 then q.ceil else q.floor
  if Decimal.remainder x y < 0 then if 0 < y then whole - 1 else whole + 1 else whole

def floorDiv (a b : Value) : Except Fault Value :=
  match coerce true a b with
  | some (.ints m n) => if n = 0 then failed "//" a b else bounded "//" a b (m / n)
  | some (.floats x y) => .ok (float (divFloats x y))
  | _ => unsupported "//" a b

def mod (a b : Value) : Except Fault Value :=
  match coerce true a b with
  | some (.ints m n) => if n = 0 then failed "%" a b else bounded "%" a b (m % n)
  | some (.floats x y) => .ok (float (Decimal.remainder x y))
  | _ => unsupported "%" a b

def powInt? (m : Int) : Nat → Option Int
  | 0 => some 1
  | n + 1 =>
      if m = 0 || m = 1 then some m
      else if m = -1 then some (if n % 2 = 0 then -1 else 1)
      else if 127 < n then none
      else (powInt? m n).bind fun p => if isSmall (p * m) then some (p * m) else none

def pow (a b : Value) : Except Fault Value :=
  match coerce true a b with
  | some (.ints m n) =>
      if !Decimal.fitsUnsigned 32 n then failed "**" a b
      else
        match powInt? m n.toNat with
        | some p => .ok (int p)
        | none => failed "**" a b
  | some (.floats x y) => .ok (float (x.pow y))
  | _ => unsupported "**" a b

def neg : Value → Except Fault Value
  | int n => if isSmall (-n) then .ok (int (-n)) else .error (.refused "overflow")
  | float x => .ok (float (-x))
  | _ => .error .invalidOperation

def concat (a b : Value) : Value := ofString (a.display ++ b.display)

end Haml.Value
