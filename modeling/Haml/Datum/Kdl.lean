import Haml.Datum.Kdl.Document
import Haml.Datum.Kdl.Quoted
/-! Data in KDL: the documents that texts hold, and the data that documents stand for. -/

namespace Haml.Kdl

open Json (Reader)

/-! Numbers and words -/

def digits? (isDigit : Char → Bool) (cs : List Char) : Option (List Char × List Char) :=
  match cs with
  | c :: _ =>
      if isDigit c then
        let run := cs.takeWhile fun c => isDigit c || c == '_'
        some (run.filter (· != '_'), cs.drop run.length)
      else none
  | [] => none

def ofInt? (n : Int) : Option Datum :=
  if !Decimal.fitsSigned 128 n then none
  else if Decimal.fitsSigned 64 n then some (.int n)
  else some (.float (Decimal.ofInt n))

def radix? (radix : Nat) (isDigit : Char → Bool) (negative : Bool) (cs : List Char) :
    Option (Datum × List Char) := do
  let (ds, rest) ← digits? isDigit cs
  let n : Int := Decimal.natOfDigits radix ds
  return (← ofInt? (if negative then -n else n), rest)

def decimal? (negative : Bool) (cs : List Char) : Option (Datum × List Char) := do
  let (whole, rest) ← digits? Char.isDigit cs
  let (part, rest) ← match rest with
    | '.' :: rest => (digits? Char.isDigit rest).map fun (ds, rest) => (some ds, rest)
    | rest => some (none, rest)
  let (power, rest) ← match rest with
    | c :: after =>
        if c == 'e' || c == 'E' then do
          let (down, after) := Decimal.takeSign after
          let (ds, after) ← digits? Char.isDigit after
          let magnitude : Int := Decimal.natOfDigits 10 ds
          some (some (if down then -magnitude else magnitude), after)
        else some (none, rest)
    | [] => some (none, [])
  if part.isNone && power.isNone then
    let n : Int := Decimal.natOfDigits 10 whole
    return (← ofInt? (if negative then -n else n), rest)
  let part := part.getD []
  return (.ofFloat (Decimal.ofDecimal negative (whole ++ part) (power.getD 0 - part.length)), rest)

def isOctal (c : Char) : Bool := '0' ≤ c && c ≤ '7'

def isBinary (c : Char) : Bool := c == '0' || c == '1'

def number? (cs : List Char) : Option (Datum × List Char) :=
  let (negative, body) := Decimal.takeSign cs
  match body with
  | '0' :: 'x' :: rest => radix? 16 Text.Quoted.isHexDigit negative rest
  | '0' :: 'o' :: rest => radix? 8 isOctal negative rest
  | '0' :: 'b' :: rest => radix? 2 isBinary negative rest
  | body => decimal? negative body

def word? (cs : List Char) : Option (Datum × List Char) :=
  let word := cs.takeWhile isNameChar
  let rest := cs.dropWhile isNameChar
  match String.ofList word with
  | "true" => some (.bool true, rest)
  | "false" => some (.bool false, rest)
  | "null" | "inf" | "-inf" | "nan" => some (.null, rest)
  | _ => none

/-! Blanks and comments -/

def skipComment : Nat → List Char → Option (List Char)
  | _, [] => none
  | depth, '*' :: '/' :: rest => if depth = 0 then some rest else skipComment (depth - 1) rest
  | depth, '/' :: '*' :: rest => skipComment (depth + 1) rest
  | depth, _ :: rest => skipComment depth rest

def skipLine (cs : List Char) : List Char := cs.dropWhile fun c => !isNewline c

def skipSpace : Nat → List Char → Option (List Char)
  | 0, _ => none
  | steps + 1, cs =>
      match cs.dropWhile isBlank with
      | '/' :: '*' :: rest => do skipSpace steps (← skipComment 0 rest)
      | '\\' :: rest => do
          let rest ← afterBlanks steps rest
          match rest with
          | '/' :: '/' :: rest =>
              match newline? (skipLine rest) with
              | some rest => skipSpace steps rest
              | none => some []
          | [] => some []
          | rest => do skipSpace steps (← newline? rest)
      | rest => some rest
where
  afterBlanks : Nat → List Char → Option (List Char)
    | 0, _ => none
    | steps + 1, cs =>
        match cs.dropWhile isBlank with
        | '/' :: '*' :: rest => do afterBlanks steps (← skipComment 0 rest)
        | rest => some rest

def space (cs : List Char) : Option (List Char) := skipSpace (cs.length + 1) cs

def skipLines : Nat → List Char → Option (List Char)
  | 0, _ => none
  | steps + 1, cs => do
      let rest ← space cs
      match rest with
      | '/' :: '/' :: rest => skipLines steps (skipLine rest)
      | ';' :: rest => skipLines steps rest
      | rest =>
          match newline? rest with
          | some rest => skipLines steps rest
          | none => return rest

def between (cs : List Char) : Option (List Char) := skipLines (cs.length + 1) cs

/-! Nodes -/

def Name.read (cs : List Char) : Option (Name × List Char) :=
  (text cs).map fun (value, rest) =>
    (⟨value, String.ofList (cs.take (cs.length - rest.length))⟩, rest)

def skipType (cs : List Char) : Option (List Char) :=
  match cs with
  | '(' :: rest => do
      let (_, rest) ← text (← space rest)
      let ')' :: rest ← space rest | none
      space rest
  | cs => some cs

def isApart (cs : List Char) : Bool :=
  match cs with
  | [] => true
  | '/' :: c :: _ => c == '/' || c == '*'
  | c :: _ => isBlank c || isNewline c || c == ';' || c == '}' || c == '{' || c == '\\'

def plainValue (cs : List Char) : Option (Datum × List Char) :=
  if startsNumber cs then number? cs
  else
    match string? cs with
    | some found => found.map fun (t, rest) => (.text (String.ofList t), rest)
    | none =>
        match cs with
        | '#' :: rest => word? rest
        | cs => (name? cs).map fun (t, rest) => (.text (String.ofList t), rest)

def value (cs : List Char) : Option (Datum × List Char) := do plainValue (← skipType cs)

def entry (cs : List Char) : Option (Entry × List Char) := do
  let (d, rest) ← value cs
  let named : Option (Name × List Char) :=
    match Name.read cs with
    | some (name, rest) =>
        match space rest with
        | some ('=' :: rest) => some (name, rest)
        | _ => none
    | none => none
  match named with
  | some (name, rest) => do
      let (d, rest) ← value (← space rest)
      if isApart rest then some (⟨some name, d⟩, rest) else none
  | none => if isApart rest then some (⟨none, d⟩, rest) else none

mutual

def nodes : Nat → Bool → Reader (List Node)
  | 0, _, _ => none
  | steps + 1, nested, cs => do
      match ← between cs with
      | [] => if nested then none else return ([], [])
      | '}' :: rest => if nested then return ([], rest) else none
      | '/' :: '-' :: rest => do
          let (_, rest) ← node steps (← between rest)
          nodes steps nested rest
      | cs => do
          let (first, rest) ← node steps cs
          let (more, rest) ← nodes steps nested rest
          return (first :: more, rest)

def node : Nat → Reader Node
  | 0, _ => none
  | steps + 1, cs => do
      let (name, rest) ← Name.read (← skipType cs)
      if !isApart rest then none
      let ((entries, children), rest) ← body steps rest
      return (⟨name, entries, children⟩, rest)

/-- Reads what follows the name of a node, up to its end. What stands after a slash and a dash is
left out. -/
def body : Nat → Reader (List Entry × Option (List Node))
  | 0, _ => none
  | steps + 1, cs => do
      let rest ← space cs
      match rest with
      | [] => return (([], none), [])
      | ';' :: after => return (([], none), after)
      | '}' :: _ => return (([], none), rest)
      | '/' :: '/' :: after => return (([], none), skipLine after)
      | '/' :: '-' :: after => do
          let after ← between after
          match after with
          | '{' :: after => do
              let (_, after) ← nodes steps true after
              body steps after
          | after => do
              let (_, after) ← entry after
              body steps after
      | '{' :: after => do
          let (children, after) ← nodes steps true after
          let ((entries, more), after) ← body steps after
          if entries.isEmpty && more.isNone then return (([], some children), after) else none
      | rest =>
          match newline? rest with
          | some after => return (([], none), after)
          | none => do
              if rest.length = cs.length then none
              let (e, after) ← entry rest
              let ((entries, children), after) ← body steps after
              return ((e :: entries, children), after)

end

def dropMark : List Char → List Char
  | '\ufeff' :: cs => cs
  | cs => cs

def parse (source : String) : Option Document :=
  let cs := dropMark source.toList
  (nodes (2 * cs.length + 2) false cs).map Prod.fst

def read (source : String) : Option Datum := (parse source).map Document.datum

end Haml.Kdl
