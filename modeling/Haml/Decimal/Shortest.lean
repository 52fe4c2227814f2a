import Haml.Decimal.Binary
/-! The shortest decimal that reads back as a given double. -/

namespace Haml.Decimal

structure Digits where
  digits : List Nat
  point : Int
  deriving DecidableEq, Repr

def gridLt (a : Nat) (scale : Int) (b : Nat) (power : Int) : Bool :=
  let left := a * powTen scale.toNat * powTwo (-power).toNat
  let right := b * powTwo power.toNat * powTen (-scale).toNat
  left < right

def gridLe (a : Nat) (scale : Int) (b : Nat) (power : Int) : Bool :=
  let left := a * powTen scale.toNat * powTwo (-power).toNat
  let right := b * powTwo power.toNat * powTen (-scale).toNat
  left ≤ right

/-- The reals that round to a positive double, as `low * 2 ^ power` and `high * 2 ^ power`; the ends
belong to it exactly if `closed`. -/
structure Interval where
  low : Nat
  high : Nat
  power : Int
  closed : Bool

def Interval.ofBinary (x : Binary) : Interval :=
  let narrow := x.mantissa == powTwo 52 && -1074 < x.exponent
  { low := 4 * x.mantissa - (if narrow then 1 else 2)
    high := 4 * x.mantissa + 2
    power := x.exponent - 2
    closed := x.mantissa % 2 == 0 }

def Interval.contains (i : Interval) (a : Nat) (scale : Int) : Bool :=
  if i.closed then !gridLt a scale i.low i.power && gridLe a scale i.high i.power
  else !gridLe a scale i.low i.power && gridLt a scale i.high i.power

def magnitude (m : Nat) (e : Int) : Int :=
  let num := m * powTwo e.toNat
  let den := powTwo (-e).toNat
  let rec climb : Nat → Int → Int
    | 0, k => k
    | fuel + 1, k => if gridLe 1 k m e then climb fuel (k + 1) else k
  let guess : Int := ((num.log2 : Int) - den.log2) * 30103 / 100000 - 1
  climb 8 guess

def gridFloor (m : Nat) (e scale : Int) : Nat :=
  (m * powTwo e.toNat * powTen (-scale).toNat) / (powTwo (-e).toNat * powTen scale.toNat)

def upperNearer (m : Nat) (e : Int) (d : Nat) (scale : Int) : Bool :=
  let middle := (2 * d + 1) * powTen scale.toNat * powTwo (-e).toNat
  let value := 2 * m * powTwo e.toNat * powTen (-scale).toNat
  middle < value || (middle == value && d % 2 == 1)

def digitsOf (n : Nat) : List Nat := (Nat.toDigits 10 n).map fun c => c.toNat - 48

def dropTrailingZeros (ds : List Nat) : List Nat := (ds.reverse.dropWhile (· == 0)).reverse

def search (x : Binary) (i : Interval) (k : Int) : Nat → Nat → Nat × Int
  | 0, n => (gridFloor x.mantissa x.exponent (k - n), k - n)
  | fuel + 1, n =>
      let scale := k - n
      let d := gridFloor x.mantissa x.exponent scale
      let lower := i.contains d scale
      let upper := i.contains (d + 1) scale
      if lower && upper then
        (if upperNearer x.mantissa x.exponent d scale then d + 1 else d, scale)
      else if lower then (d, scale)
      else if upper then (d + 1, scale)
      else search x i k fuel (n + 1)

/-- The fewest digits that read back as `x`, and of those the nearest; none for zero. -/
def shortest (x : Binary) : Digits :=
  if x.mantissa == 0 then ⟨[], 0⟩
  else
    let (d, scale) := search x (.ofBinary x) (magnitude x.mantissa x.exponent) 17 1
    let ds := digitsOf d
    ⟨dropTrailingZeros ds, ds.length + scale⟩

end Haml.Decimal
