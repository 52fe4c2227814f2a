import Haml.Datum
import Haml.Decimal.Text
import Haml.Text.Blank
import Haml.Text.Quoted
/-! Numbers, dates and times in TOML. -/

namespace Haml.Toml

def separated? (isDigit : Char → Bool) (cs : List Char) : Option (List Char) :=
  let groups := cs.splitOn '_'
  if groups.all fun g => !g.isEmpty && g.all isDigit then some groups.flatten else none

def isOctal (c : Char) : Bool := '0' ≤ c && c ≤ '7'

def isBinary (c : Char) : Bool := c == '0' || c == '1'

def ofInt? (n : Int) : Option Datum :=
  if Decimal.fitsSigned 64 n then some (.int n) else none

def ofRadix? (radix : Nat) (isDigit : Char → Bool) (cs : List Char) : Option Datum :=
  (separated? isDigit cs).bind fun ds => ofInt? (Decimal.natOfDigits radix ds)

def wholeDigits? (cs : List Char) : Option (List Char) :=
  (separated? Char.isDigit cs).filter fun ds => ds.length = 1 || ds.head? != some '0'

def isExponentMark (c : Char) : Bool := c == 'e' || c == 'E'

def float? (negative : Bool) (cs : List Char) : Option Datum := do
  let mantissa := cs.takeWhile fun c => !isExponentMark c
  let power := cs.dropWhile fun c => !isExponentMark c
  let whole ← wholeDigits? (mantissa.takeWhile (· != '.'))
  let part ← match mantissa.dropWhile (· != '.') with
    | [] => if power.isEmpty then none else some []
    | _ :: part => separated? Char.isDigit part
  let exponent ← match power with
    | [] => some (0 : Int)
    | _ :: power => do
        let (down, ds) := Decimal.takeSign power
        let ds ← separated? Char.isDigit ds
        let magnitude : Int := Decimal.natOfDigits 10 ds
        some (if down then -magnitude else magnitude)
  let x := Decimal.ofDecimal negative (whole ++ part) (exponent - part.length)
  if x.isFinite then some (.float x) else none

def number? (cs : List Char) : Option Datum :=
  match cs with
  | '0' :: 'x' :: cs => ofRadix? 16 Text.Quoted.isHexDigit cs
  | '0' :: 'o' :: cs => ofRadix? 8 isOctal cs
  | '0' :: 'b' :: cs => ofRadix? 2 isBinary cs
  | cs =>
      let (negative, body) := Decimal.takeSign cs
      match String.ofList body with
      | "inf" | "nan" => some .null
      | _ =>
          match wholeDigits? body with
          | some ds =>
              let n : Int := Decimal.natOfDigits 10 ds
              ofInt? (if negative then -n else n)
          | none => float? negative body

/-! Dates and times -/

def digits? (count : Nat) (cs : List Char) : Option (Nat × List Char) :=
  let ds := cs.take count
  if ds.length = count && ds.all Char.isDigit then
    some (Decimal.natOfDigits 10 ds, cs.drop count)
  else none

def isLeap (year : Nat) : Bool := year % 4 = 0 && (year % 100 ≠ 0 || year % 400 = 0)

def daysIn (year month : Nat) : Nat :=
  match month with
  | 2 => if isLeap year then 29 else 28
  | 4 | 6 | 9 | 11 => 30
  | _ => 31

def twoDigits (n : Nat) : String := (if n < 10 then "0" else "") ++ toString n

def fourDigits (n : Nat) : String := "".pushn '0' (4 - (toString n).length) ++ toString n

def date? (cs : List Char) : Option (String × List Char) := do
  let (year, cs) ← digits? 4 cs
  let '-' :: cs := cs | none
  let (month, cs) ← digits? 2 cs
  let '-' :: cs := cs | none
  let (day, cs) ← digits? 2 cs
  if month < 1 || 12 < month || day < 1 || daysIn year month < day then none
  some (fourDigits year ++ "-" ++ twoDigits month ++ "-" ++ twoDigits day, cs)

/-- A fraction of a second, up to nine places. Zeros at its end are dropped after the first place. -/
def fractionText (ds : List Char) : String :=
  let kept := Text.dropEnd (· == '0') (ds.take 9)
  if kept.isEmpty then ".0" else "." ++ String.ofList kept

def seconds? (cs : List Char) : Option (String × List Char) :=
  match cs with
  | ':' :: cs => do
      let (second, cs) ← digits? 2 cs
      if 60 < second then none
      let text := ":" ++ twoDigits second
      match cs with
      | '.' :: cs =>
          let ds := cs.takeWhile Char.isDigit
          if ds.isEmpty then none else some (text ++ fractionText ds, cs.dropWhile Char.isDigit)
      | cs => some (text, cs)
  | cs => some ("", cs)

def time? (cs : List Char) : Option (String × List Char) := do
  let (hour, cs) ← digits? 2 cs
  let ':' :: cs := cs | none
  let (minute, cs) ← digits? 2 cs
  if 23 < hour || 59 < minute then none
  let (seconds, cs) ← seconds? cs
  some (twoDigits hour ++ ":" ++ twoDigits minute ++ seconds, cs)

def offset? (cs : List Char) : Option String :=
  match cs with
  | [] => some ""
  | ['Z'] | ['z'] => some "Z"
  | sign :: cs => do
      if sign != '+' && sign != '-' then none
      let (hour, cs) ← digits? 2 cs
      let ':' :: cs := cs | none
      let (minute, cs) ← digits? 2 cs
      if !cs.isEmpty || 23 < hour || 59 < minute then none
      let sign := if hour = 0 && minute = 0 then "+" else String.singleton sign
      some (sign ++ twoDigits hour ++ ":" ++ twoDigits minute)

def moment? (cs : List Char) : Option Datum :=
  match date? cs with
  | some (date, []) => some (.moment date)
  | some (date, c :: rest) => do
      if c != 'T' && c != 't' && c != ' ' then none
      let (time, rest) ← time? rest
      let offset ← offset? rest
      some (.moment (date ++ "T" ++ time ++ offset))
  | none => do
      let (time, rest) ← time? cs
      if rest.isEmpty then some (.moment time) else none

def isScalarChar (c : Char) : Bool :=
  c.isAlphanum || c == '_' || c == '+' || c == '-' || c == '.' || c == ':'

def scalarText (cs : List Char) : List Char :=
  let first := cs.takeWhile isScalarChar
  match cs.dropWhile isScalarChar with
  | ' ' :: d :: rest =>
      if first.length = 10 && (date? first).isSome && d.isDigit then
        first ++ ' ' :: (d :: rest).takeWhile isScalarChar
      else first
  | _ => first

def scalar? (cs : List Char) : Option (Datum × List Char) :=
  let text := scalarText cs
  let d : Option Datum := match String.ofList text with
    | "true" => some (.bool true)
    | "false" => some (.bool false)
    | _ => (number? text).or (moment? text)
  d.map (·, cs.drop text.length)

end Haml.Toml
