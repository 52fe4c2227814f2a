import Haml.Datum
import Haml.Decimal.Text
import Haml.Text.Quoted
/-! Data in JSON. -/

namespace Haml.Json

abbrev Reader (α : Type) := List Char → Option (α × List Char)

def isBlank (c : Char) : Bool := c == ' ' || c == '\n' || c == '\r' || c == '\t'

def skipBlank (cs : List Char) : List Char := cs.dropWhile isBlank

def codeUnit? (digits : List Char) : Option Nat :=
  if digits.all Text.Quoted.isHexDigit then some (Decimal.natOfDigits 16 digits) else none

def isHighSurrogate (n : Nat) : Bool := 0xD800 ≤ n && n < 0xDC00

def isLowSurrogate (n : Nat) : Bool := 0xDC00 ≤ n && n < 0xE000

def escape? : Char → Option Char
  | '"' => some '"'
  | '\\' => some '\\'
  | '/' => some '/'
  | 'b' => some '\x08'
  | 'f' => some '\x0c'
  | 'n' => some '\n'
  | 'r' => some '\r'
  | 't' => some '\t'
  | _ => none

def text : Reader (List Char)
  | [] => none
  | '"' :: rest => some ([], rest)
  | '\\' :: 'u' :: a :: b :: c :: d :: rest =>
      match codeUnit? [a, b, c, d] with
      | none => none
      | some high =>
          if isHighSurrogate high then
            match rest with
            | '\\' :: 'u' :: e :: f :: g :: h :: rest =>
                match codeUnit? [e, f, g, h] with
                | none => none
                | some low =>
                    if isLowSurrogate low then
                      let n := 0x10000 + (high - 0xD800) * 0x400 + (low - 0xDC00)
                      (text rest).map fun (cs, rest) => (Char.ofNat n :: cs, rest)
                    else none
            | _ => none
          else if isLowSurrogate high then none
          else (text rest).map fun (cs, rest) => (Char.ofNat high :: cs, rest)
  | '\\' :: c :: rest =>
      match escape? c with
      | some c => (text rest).map fun (cs, rest) => (c :: cs, rest)
      | none => none
  | c :: rest =>
      if c == '\\' || c.toNat < 32 then none
      else (text rest).map fun (cs, rest) => (c :: cs, rest)

structure Scaled where
  significand : Nat
  exponent : Int

def Scaled.addWhole (s : Scaled) : List Char → Scaled
  | [] => s
  | d :: ds =>
      let next := 10 * s.significand + Decimal.digitValue d
      if next < Decimal.powTwo 64 then addWhole ⟨next, s.exponent⟩ ds
      else ⟨s.significand, s.exponent + (ds.length + 1)⟩

def Scaled.addPart (s : Scaled) : List Char → Scaled
  | [] => s
  | d :: ds =>
      let next := 10 * s.significand + Decimal.digitValue d
      if next < Decimal.powTwo 64 then addPart ⟨next, s.exponent - 1⟩ ds else s

def powerOfTen (n : Nat) : Float := Decimal.ofQuotient false (Decimal.powTen n) 1

/-- The significand as a double, scaled in the arithmetic of doubles by powers of ten in their
range; none if that is out of range. -/
def Scaled.toFloat? (negative : Bool) (s : Scaled) : Option Float :=
  let x := Decimal.ofInt s.significand
  let signed (x : Float) : Float := if negative then -x else x
  if 0 ≤ s.exponent then
    if 308 < s.exponent then if s.significand = 0 then some (signed x) else none
    else
      let scaled := x * powerOfTen s.exponent.toNat
      if scaled.isInf then none else some (signed scaled)
  else
    let places := s.exponent.natAbs
    if 1000 < places then some (signed 0)
    else
      let coarse := (places - 1) / 308
      let reduced := (List.range coarse).foldl (fun x _ => x / powerOfTen 308) x
      some (signed (reduced / powerOfTen (places - 308 * coarse)))

def number (cs : List Char) : Option (Datum × List Char) :=
  let (negative, cs) : Bool × List Char := match cs with
    | '-' :: cs => (true, cs)
    | cs => (false, cs)
  let whole := cs.takeWhile Char.isDigit
  let rest := cs.dropWhile Char.isDigit
  if whole.isEmpty || (whole.head? == some '0' && 1 < whole.length) then none
  else
    let scaled := Scaled.addWhole ⟨0, 0⟩ whole
    let (part, rest) : Option (List Char) × List Char := match rest with
      | '.' :: cs => (some (cs.takeWhile Char.isDigit), cs.dropWhile Char.isDigit)
      | cs => (none, cs)
    if part == some [] then none
    else
      let scaled := scaled.addPart (part.getD [])
      match rest with
      | c :: after =>
          if c == 'e' || c == 'E' then
            let (down, after) := Decimal.takeSign after
            let digits := after.takeWhile Char.isDigit
            if digits.isEmpty then none
            else
              let power : Int := Decimal.natOfDigits 10 digits
              let exponent := if down then scaled.exponent - power else scaled.exponent + power
              (Scaled.toFloat? negative ⟨scaled.significand, exponent⟩).map fun x =>
                (.float x, after.dropWhile Char.isDigit)
          else plain negative part.isNone scaled rest
      | [] => plain negative part.isNone scaled rest
where
  /-- A number without exponent; whole ones that fit 64 bits are integers, except minus zero. -/
  plain (negative isWhole : Bool) (s : Scaled) (rest : List Char) : Option (Datum × List Char) :=
    if isWhole && s.exponent == 0 && !negative then some (.int s.significand, rest)
    else if isWhole && s.exponent == 0 && 0 < s.significand && s.significand ≤ Decimal.powTwo 63 then
      some (.int (-s.significand), rest)
    else (s.toFloat? negative).map (.float ·, rest)

mutual

def value : Nat → Nat → Reader Datum
  | 0, _, _ => none
  | steps + 1, depth, cs =>
      match skipBlank cs with
      | 'n' :: 'u' :: 'l' :: 'l' :: rest => some (.null, rest)
      | 't' :: 'r' :: 'u' :: 'e' :: rest => some (.bool true, rest)
      | 'f' :: 'a' :: 'l' :: 's' :: 'e' :: rest => some (.bool false, rest)
      | '"' :: rest => (text rest).map fun (cs, rest) => (.text (String.ofList cs), rest)
      | '[' :: rest =>
          if depth ≤ 1 then none
          else
            match skipBlank rest with
            | ']' :: rest => some (.list [], rest)
            | rest => (items steps (depth - 1) rest).map fun (ds, rest) => (.list ds, rest)
      | '{' :: rest =>
          if depth ≤ 1 then none
          else
            match skipBlank rest with
            | '}' :: rest => some (.table [], rest)
            | rest => (entries steps (depth - 1) rest).map fun (es, rest) => (.ofEntries es, rest)
      | cs => number cs

def items : Nat → Nat → Reader (List Datum)
  | 0, _, _ => none
  | steps + 1, depth, cs => do
      let (d, rest) ← value steps depth cs
      match skipBlank rest with
      | ']' :: rest => return ([d], rest)
      | ',' :: rest => do
          let (ds, rest) ← items steps depth rest
          return (d :: ds, rest)
      | _ => none

def entries : Nat → Nat → Reader (List (String × Datum))
  | 0, _, _ => none
  | steps + 1, depth, cs =>
      match skipBlank cs with
      | '"' :: rest => do
          let (key, rest) ← text rest
          match skipBlank rest with
          | ':' :: rest => do
              let (d, rest) ← value steps depth rest
              let entry := (String.ofList key, d)
              match skipBlank rest with
              | '}' :: rest => return ([entry], rest)
              | ',' :: rest => do
                  let (es, rest) ← entries steps depth rest
                  return (entry :: es, rest)
              | _ => none
          | _ => none
      | _ => none

end

def maxDepth : Nat := 128

def read (source : String) : Option Datum :=
  let cs := source.toList
  match value (2 * cs.length + 2) maxDepth cs with
  | some (d, rest) => if (skipBlank rest).isEmpty then some d else none
  | none => none

end Haml.Json
