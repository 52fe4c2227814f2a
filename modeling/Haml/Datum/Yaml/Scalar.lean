import Haml.Datum.Json
/-! Scalars in YAML: what they stand for. -/

namespace Haml.Yaml

def truths : List (String × Bool) :=
  [("true", true), ("True", true), ("TRUE", true), ("false", false), ("False", false),
    ("FALSE", false)]

def nulls : List String := ["", "~", "null", "Null", "NULL"]

def isPadded (cs : List Char) : Bool :=
  let (_, digits) := Decimal.takeSign cs
  1 < digits.length && digits.head? == some '0' && digits.all Char.isDigit

def isOctal (c : Char) : Bool := '0' ≤ c && c ≤ '7'

def isBinary (c : Char) : Bool := c == '0' || c == '1'

def radixOf (cs : List Char) : Nat × List Char :=
  match cs with
  | '0' :: 'x' :: rest => if rest.all Text.Quoted.isHexDigit then (16, rest) else (10, cs)
  | '0' :: 'o' :: rest => if rest.all isOctal then (8, rest) else (10, cs)
  | '0' :: 'b' :: rest => if rest.all isBinary then (2, rest) else (10, cs)
  | cs => (10, cs)

def integer? (cs : List Char) : Option Int :=
  let (negative, body) := Decimal.takeSign cs
  let (radix, digits) := radixOf body
  if digits.isEmpty || isPadded cs || (radix = 10 && !digits.all Char.isDigit) then none
  else
    let n : Int := Decimal.natOfDigits radix digits
    some (if negative then -n else n)

def hasSign (cs : List Char) : Bool := cs.head? == some '+' || cs.head? == some '-'

def infinities : List String :=
  [".inf", ".Inf", ".INF", "+.inf", "+.Inf", "+.INF", "-.inf", "-.Inf", "-.INF", ".nan", ".NaN",
    ".NAN"]

def float? (cs : List Char) : Option Datum :=
  let body := match cs with
    | '+' :: rest => rest
    | cs => cs
  if infinities.contains (String.ofList cs) then some .null
  else if cs.head? == some '+' && hasSign body then none
  else
    match Decimal.read body with
    | .ok x => if x.isFinite then some (.float x) else none
    | .error _ => none

def fits (n : Int) : Bool := Decimal.fitsSigned 64 n || Decimal.fitsUnsigned 64 n

def resolve (cs : List Char) : Option Datum :=
  let text := String.ofList cs
  if nulls.contains text then some .null
  else
    match truths.lookup text, integer? cs with
    | some b, _ => some (.bool b)
    | none, some n =>
        if fits n then some (.int n)
        else if Decimal.fitsSigned 128 n || Decimal.fitsUnsigned 128 n then none
        else some ((float? cs).getD (.text text))
    | none, none => some (if isPadded cs then .text text else (float? cs).getD (.text text))

/-- What a scalar with a tag stands for; none if the tag is unknown or the text is none of its
kind. -/
def resolveAs (tag text : String) : Option Datum :=
  match tag with
  | "tag:yaml.org,2002:bool" => (truths.lookup text).map .bool
  | "tag:yaml.org,2002:int" => ((integer? text.toList).filter fits).map .int
  | "tag:yaml.org,2002:float" => float? text.toList
  | "tag:yaml.org,2002:null" => if text != "" && nulls.contains text then some .null else none
  | _ => if tag.startsWith "!" then none else some (.text text)

end Haml.Yaml
