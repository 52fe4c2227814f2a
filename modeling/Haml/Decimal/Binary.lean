import Haml.Decimal.Power
/-! Double precision numbers as integers times powers of two, and the rounding of a quotient to the
nearest one. -/

namespace Haml.Decimal

structure Binary where
  negative : Bool
  mantissa : Nat
  exponent : Int
  deriving DecidableEq, Repr

inductive Double where
  | nan
  | infinite (negative : Bool)
  | finite (value : Binary)
  deriving DecidableEq, Repr

def Double.ofFloat (x : Float) : Double :=
  let bits : Nat := x.toBits.toNat
  let negative := bits / powTwo 63 == 1
  let power : Nat := bits / powTwo 52 % 2048
  let fraction : Nat := bits % powTwo 52
  if power == 2047 then
    if fraction == 0 then .infinite negative else .nan
  else if power == 0 then .finite ⟨negative, fraction, -1074⟩
  else .finite ⟨negative, fraction + powTwo 52, (power : Int) - 1075⟩

def roundHalfEven (num den : Nat) : Nat :=
  let q := num / den
  let r := num % den
  if 2 * r < den then q
  else if den < 2 * r then q + 1
  else if q % 2 == 0 then q else q + 1

def inUnits (num den : Nat) (exponent : Int) : Nat :=
  if exponent < 0 then roundHalfEven (num * powTwo exponent.natAbs) den
  else roundHalfEven num (den * powTwo exponent.natAbs)

def unitExponent (num den : Nat) : Int :=
  max (-1074) ((num.log2 : Int) - den.log2 - 52)

def ofQuotient (negative : Bool) (num den : Nat) : Float :=
  let sign : Nat := if negative then powTwo 63 else 0
  let build (mantissa : Nat) (exponent : Int) : Nat :=
    if mantissa < powTwo 52 then mantissa
    else if 971 < exponent then 2047 * powTwo 52
    else (exponent + 1075).toNat * powTwo 52 + (mantissa - powTwo 52)
  let bits :=
    if num == 0 || den == 0 then 0
    else
      let estimate := unitExponent num den
      let below := inUnits num den estimate
      if below < powTwo 52 && -1074 < estimate then
        let finer := inUnits num den (estimate - 1)
        if finer == powTwo 53 then build (powTwo 52) estimate else build finer (estimate - 1)
      else if below == powTwo 53 then build (powTwo 52) (estimate + 1)
      else build below estimate
  Float.ofBits (UInt64.ofNat (sign + bits))

def ofInt (n : Int) : Float := ofQuotient (n < 0) n.natAbs 1

def Binary.truncate (x : Binary) : Int :=
  let magnitude :=
    if x.exponent < 0 then x.mantissa / powTwo x.exponent.natAbs
    else x.mantissa * powTwo x.exponent.natAbs
  if x.negative then -(magnitude : Int) else magnitude

def Binary.isWhole (x : Binary) : Bool :=
  0 ≤ x.exponent || x.mantissa % powTwo x.exponent.natAbs == 0

def remainder (a b : Float) : Float :=
  match Double.ofFloat a, Double.ofFloat b with
  | .finite x, .finite y =>
      let e := min x.exponent y.exponent
      let m := x.mantissa * powTwo (x.exponent - e).toNat
      let n := y.mantissa * powTwo (y.exponent - e).toNat
      if n == 0 then Float.ofBits 0x7FF8000000000000
      else if e < 0 then ofQuotient x.negative (m % n) (powTwo e.natAbs)
      else ofQuotient x.negative (m % n * powTwo e.natAbs) 1
  | .finite _, .infinite _ => a
  | _, _ => Float.ofBits 0x7FF8000000000000

end Haml.Decimal
