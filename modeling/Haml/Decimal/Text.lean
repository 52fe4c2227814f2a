import Haml.Decimal.Shortest
/-! Numbers as text: how doubles are written and read. -/

namespace Haml.Decimal

structure Style where
  nan : String
  fraction : Bool
  /-- Magnitudes `0.d * 10 ^ point` with `point` between the two are written positionally. -/
  positional : Option (Int × Int)

def plainStyle : Style := ⟨"NaN", false, none⟩

def fractionStyle : Style := ⟨"NaN", true, none⟩

def exponentStyle : Style := ⟨"NaN", true, some (-4, 16)⟩

def digitText (ds : List Nat) : String := String.ofList (ds.map Nat.digitChar)

def zeros (n : Int) : String := String.ofList (List.replicate n.toNat '0')

def writePositional (fraction : Bool) (d : Digits) : String :=
  let size : Int := d.digits.length
  if d.digits.isEmpty then if fraction then "0.0" else "0"
  else if d.point ≤ 0 then "0." ++ zeros (-d.point) ++ digitText d.digits
  else if size ≤ d.point then
    digitText d.digits ++ zeros (d.point - size) ++ (if fraction then ".0" else "")
  else digitText (d.digits.take d.point.toNat) ++ "." ++ digitText (d.digits.drop d.point.toNat)

def writeScientific (d : Digits) : String :=
  digitText (d.digits.take 1) ++
    (if d.digits.length ≤ 1 then "" else "." ++ digitText (d.digits.drop 1)) ++
    "e" ++ toString (d.point - 1)

def Style.digits (s : Style) (d : Digits) : String :=
  match s.positional with
  | some (low, high) =>
      if d.digits.isEmpty || (low ≤ d.point && d.point ≤ high) then writePositional s.fraction d
      else writeScientific d
  | none => writePositional s.fraction d

def Style.write (s : Style) (x : Float) : String :=
  match Double.ofFloat x with
  | .nan => s.nan
  | .infinite negative => if negative then "-inf" else "inf"
  | .finite value => (if value.negative then "-" else "") ++ s.digits (shortest value)

def digitValue (c : Char) : Nat :=
  if c.isDigit then c.toNat - 48
  else if 'a' ≤ c && c ≤ 'z' then c.toNat - 87
  else c.toNat - 55

def natOfDigits (radix : Nat) (cs : List Char) : Nat :=
  cs.foldl (fun n c => n * radix + digitValue c) 0

def ofDecimal (negative : Bool) (digits : List Char) (exponent : Int) : Float :=
  let mantissa := natOfDigits 10 digits
  let size : Int := (digits.dropWhile (· == '0')).length
  if mantissa == 0 || size + exponent < -330 then ofQuotient negative 0 1
  else if 400 < size + exponent then ofQuotient negative (powTwo 1100) 1
  else ofQuotient negative (mantissa * powTen exponent.toNat) (powTen (-exponent).toNat)

def takeSign : List Char → Bool × List Char
  | '-' :: cs => (true, cs)
  | '+' :: cs => (false, cs)
  | cs => (false, cs)

def readExponent (cs : List Char) : Option Int :=
  let (negative, ds) := takeSign cs
  if ds.isEmpty || !ds.all Char.isDigit then none
  else
    let magnitude : Int := natOfDigits 10 ds
    some (if negative then -magnitude else magnitude)

inductive ReadError where
  | empty
  | invalid
  deriving DecidableEq, Repr

/-- Reads a sign, digits with at most one point among or beside them, and an exponent; or a word for
infinity or for no number. -/
def read (cs : List Char) : Except ReadError Float :=
  if cs.isEmpty then .error .empty
  else
    let (negative, body) := takeSign cs
    let word := String.ofList (body.map Char.toLower)
    if word == "inf" || word == "infinity" then
      .ok (Float.ofBits (if negative then 0xFFF0000000000000 else 0x7FF0000000000000))
    else if word == "nan" then .ok (Float.ofBits 0x7FF8000000000000)
    else
      let whole := body.takeWhile Char.isDigit
      let rest := body.dropWhile Char.isDigit
      let (part, tail) :=
        match rest with
        | '.' :: cs => (cs.takeWhile Char.isDigit, cs.dropWhile Char.isDigit)
        | cs => ([], cs)
      if whole.isEmpty && part.isEmpty then .error .invalid
      else
        let power : Option Int :=
          match tail with
          | [] => some 0
          | c :: cs => if c == 'e' || c == 'E' then readExponent cs else none
        match power with
        | some e => .ok (ofDecimal negative (whole ++ part) (e - part.length))
        | none => .error .invalid

end Haml.Decimal
