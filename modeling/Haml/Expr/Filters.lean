import Haml.Expr.Tests
import Haml.Text.Case
import Haml.Value.Arith
/-! Filters: the transforms that `|` applies to a value. Those that cut a value into batches, slices or
groups, put sequences together, indent, format or pretty print are not among them. -/

namespace Haml.Expr

namespace Filters

abbrev Transform := Value → Args → Except Fault Value

def ofText (f : List Char → List Char) : Transform := fun v args => do
  let _ ← Args.atMost 0 args.all
  return .ofString (String.ofList (f v.display.toList))

def isPunctuation (c : Char) : Bool :=
  let n := c.toNat
  (33 ≤ n && n ≤ 47) || (58 ≤ n && n ≤ 64) || (91 ≤ n && n ≤ 96) || (123 ≤ n && n ≤ 126)

def titleFrom (start : Bool) : List Char → List Char
  | [] => []
  | c :: cs =>
      if isPunctuation c || Text.isBlank c then c :: titleFrom true cs
      else if start then Text.upperChar c ++ titleFrom false cs
      else Text.lowerChar c ++ titleFrom false cs

def capitalize : List Char → List Char
  | [] => []
  | c :: cs => Text.upperChar c ++ Text.lower cs

def replaceChars (old new : List Char) : List Char → List Char :=
  fun cs =>
    if old.isEmpty then new ++ cs.flatMap (· :: new)
    else go 0 cs
where
  /-- `skip` characters belong to an occurrence already replaced. -/
  go : Nat → List Char → List Char
    | _, [] => []
    | skip + 1, _ :: cs => go skip cs
    | 0, c :: cs =>
        if old.isPrefixOf (c :: cs) then new ++ go (old.length - 1) cs else c :: go 0 cs

def replace : Transform := fun v args => do
  let args ← Args.atMost 2 args.all
  let old ← Args.text args 0
  let new ← Args.text args 1
  return .ofString (String.ofList (replaceChars old.toList new.toList v.display.toList))

def trim : Transform := fun v args => do
  let args ← Args.atMost 1 args.all
  let cs := v.display.toList
  let p : Char → Bool := match Args.optionalText args 0 with
    | some chars => fun c => c ∈ chars.toList
    | none => Text.isBlank
  return .ofString (String.ofList (Text.dropEnd p (cs.dropWhile p)))

def length : Transform := fun v args => do
  let _ ← Args.atMost 0 args.all
  match v.size? with
  | some n => return .int n
  | none => throw (.refused ("cannot calculate length of value of type " ++ v.kind.text))

def pairs (entries : List (Value × Value)) : Value :=
  .list (entries.map fun (k, v) => .list [k, v])

def entries? : Value → Option (List (Value × Value))
  | .map entries => some entries
  | .renderer .. => some []
  | _ => none

def entries (v : Value) : Except Fault (List (Value × Value)) :=
  match entries? v with
  | some entries => .ok entries
  | none => .error (.refused "cannot convert value into pair list")

def pairList : Transform := fun v args => do
  let _ ← Args.atMost 0 args.all
  return pairs (← entries v)

def compareKeys (caseSensitive : Bool) (a b : Value) : Ordering :=
  match a, b with
  | .text s _, .text t _ =>
      if caseSensitive then a.compare b
      else Ord.compare (Text.asciiLower s) (Text.asciiLower t)
  | a, b => a.compare b

def sortBy {α : Type} (key : α → Value) (caseSensitive reverse : Bool) (xs : List α) : List α :=
  let sorted := xs.mergeSort fun a b => compareKeys caseSensitive (key a) (key b) != .gt
  if reverse then sorted.reverse else sorted

def dictsort : Transform := fun v args => do
  let _ ← Args.atMost 0 args.values
  let entries ← entries v
  let byValue ← match args.named? "by" with
    | some (.text "value" _) => pure true
    | some (.text "key" _) => pure false
    | some v =>
        if v.isAbsent then pure false
        else throw (.refused ("invalid value '" ++ v.display ++ "' for 'by' parameter"))
    | none => pure false
  let caseSensitive ← args.flag "case_sensitive"
  let reverse ← args.flag "reverse"
  args.allow ["by", "case_sensitive", "reverse"]
  return pairs (sortBy (if byValue then Prod.snd else Prod.fst) caseSensitive reverse entries)

def listItems (v : Value) : Except Fault (List Value) :=
  match v.items? with
  | some items => .ok items
  | none => .error (.refused "cannot convert value to list")

def attribute? (args : Args) : Except Fault (Option String) :=
  match args.named? "attribute" with
  | some (.text s _) => .ok (some s)
  | some v => if v.isAbsent then .ok none else .error (.refused "value is not a string")
  | none => .ok none

def pathOr (v : Value) (path : String) : Value := (v.getPath path).toOption.getD .undefined

def keyOf (path : Option String) (v : Value) : Value :=
  match path with
  | some path => pathOr v path
  | none => v

def sort : Transform := fun v args => do
  let _ ← Args.atMost 0 args.values
  let items ← listItems v
  let caseSensitive ← args.flag "case_sensitive"
  let path ← attribute? args
  let reverse ← args.flag "reverse"
  args.allow ["case_sensitive", "attribute", "reverse"]
  return .list (sortBy (keyOf path) caseSensitive reverse items)

def distinct (key : Value → Value) : List Value → List Value → List Value
  | _, [] => []
  | seen, v :: vs =>
      if seen.any fun k => k.compare (key v) == .eq then distinct key seen vs
      else v :: distinct key (key v :: seen) vs

def unique : Transform := fun v args => do
  let _ ← Args.atMost 0 args.values
  let path ← attribute? args
  let caseSensitive ← args.flag "case_sensitive"
  args.allow ["case_sensitive", "attribute"]
  let fold (v : Value) : Value :=
    match v with
    | .text s _ =>
        if caseSensitive then v else .ofString (String.ofList (Text.lower s.toList))
    | v => v
  return .list (distinct (fun v => fold (keyOf path v)) [] (← v.items))

/-- The texts of the items in a row; the joiner stands before an item if there is text before it. -/
def joinTexts (joiner : String) (texts : List String) : String :=
  texts.foldl (fun out s => if out.isEmpty then s else out ++ joiner ++ s) ""

def join : Transform := fun v args => do
  let args ← Args.atMost 1 args.all
  if v.isAbsent then return .ofString ""
  let joiner := (Args.optionalText args 0).getD ""
  match v.items? with
  | some items => return .ofString (joinTexts joiner (items.map Value.display))
  | none => throw (.refused ("cannot join value of type " ++ v.kind.text))

def first : Transform := fun v args => do
  let _ ← Args.atMost 0 args.all
  match v with
  | .text s _ => return (s.toList.head?.map Value.ofChar).getD .undefined
  | .list items | .iter items _ => return items.head?.getD .undefined
  | .map entries => return (entries.head?.map Prod.fst).getD .undefined
  | .renderer .. => return .undefined
  | _ => throw (.refused "cannot get first item from value")

def last : Transform := fun v args => do
  let _ ← Args.atMost 0 args.all
  match v with
  | .text s _ => return (s.toList.getLast?.map Value.ofChar).getD .undefined
  | .list items | .iter items _ => return items.getLast?.getD .undefined
  | _ => throw (.refused "cannot get last item from value")

def reverse : Transform := fun v args => do
  let _ ← Args.atMost 0 args.all
  match v with
  | .undefined | .null => return v
  | .text s _ => return .ofString (String.ofList s.toList.reverse)
  | v =>
      match v.items? with
      | some items => return .iter items.reverse true
      | none => throw (.refused ("cannot reverse values of type " ++ v.kind.text))

/-- The value, or another in place of an undefined one; in place of a false one too if asked for. -/
def orDefault : Transform := fun v args => do
  let other := (Args.optional args.all 0).getD (.ofString "")
  let lax ← match Args.optional args.all 1 with
    | some b => Args.toBool b
    | none => pure false
  let _ ← Args.atMost 2 args.all
  match v with
  | .undefined => return other
  | v => return if lax && !v.isTrue then other else v

def abs : Transform := fun v args => do
  let _ ← Args.atMost 0 args.all
  match v with
  | .int n => return .int n.natAbs
  | .float x => return .float x.abs
  | _ => throw (.refused "cannot get absolute value")

def readErrorText : Decimal.ReadError → String
  | .empty => "cannot parse float from empty string"
  | .invalid => "invalid float literal"

/-- The integer part of a double, kept in range; none of a double that is no number. -/
def truncate (x : Float) : Int :=
  let bound : Int := Decimal.powTwo 127
  match Decimal.Double.ofFloat x with
  | .nan => 0
  | .infinite negative => if negative then -bound else bound - 1
  | .finite value => max (-bound) (min (bound - 1) value.truncate)

def readInt? (cs : List Char) : Option Int :=
  let (negative, ds) := Decimal.takeSign cs
  if ds.isEmpty || !ds.all Char.isDigit then none
  else
    let n : Int := Decimal.natOfDigits 10 ds
    let n := if negative then -n else n
    if Value.isSmall n then some n else none

def toInt : Transform := fun v args => do
  let _ ← Args.atMost 0 args.all
  match v with
  | .undefined | .null => return .int 0
  | .bool b => return .int (if b then 1 else 0)
  | .int _ => return v
  | .float x => return .int (truncate x)
  | .text s _ =>
      match readInt? s.toList with
      | some n => return .int n
      | none =>
          match Decimal.read s.toList with
          | .ok x => return .int (truncate x)
          | .error e => throw (.refused (readErrorText e))
  | v => throw (.refused ("cannot convert " ++ v.kind.text ++ " to integer"))

def toFloat : Transform := fun v args => do
  let _ ← Args.atMost 0 args.all
  match v with
  | .undefined | .null => return .float 0
  | .text s _ =>
      match Decimal.read s.toList with
      | .ok x => return .float x
      | .error e => throw (.refused (readErrorText e))
  | v =>
      match v.toFloat? true with
      | some x => return .float x
      | none => throw (.refused ("cannot convert " ++ v.kind.text ++ " to float"))

def toText : Transform := fun v args => do
  let _ ← Args.atMost 0 args.all
  match v with
  | .text .. => return v
  | v => return .ofString v.display

def toBool : Transform := fun v args => do
  let _ ← Args.atMost 0 args.all
  return .bool v.isTrue

def powerOfTen (n : Int) : Float :=
  let p := square 10.0 n.natAbs 1.0 64
  if n < 0 then 1.0 / p else p
where
  square (base : Float) (n : Nat) (acc : Float) : Nat → Float
    | 0 => acc
    | fuel + 1 =>
        if n = 0 then acc
        else square (base * base) (n / 2) (if n % 2 = 1 then acc * base else acc) fuel

def round : Transform := fun v args => do
  let places := (← Args.optionalWord 32 "i32" args.all 0).getD 0
  let _ ← Args.atMost 1 args.all
  match v with
  | .int _ => return v
  | .float x =>
      let scale := powerOfTen places
      return .float ((scale * x).round / scale)
  | _ => throw (.refused "cannot round value")

def splitText (sep : List Char) (most : Option Nat) (cs : List Char) : List (List Char) :=
  if sep.isEmpty then
    cut most ([] :: (cs.map fun c => [c]) ++ [[]])
  else go most 0 [] cs
where
  /-- The pieces from the last allowed one on as one piece. -/
  cut : Option Nat → List (List Char) → List (List Char)
    | none, pieces => pieces
    | some n, pieces =>
        if pieces.length ≤ n then pieces
        else pieces.take (n - 1) ++ [(pieces.drop (n - 1)).flatten]
  go (most : Option Nat) : Nat → List Char → List Char → List (List Char)
    | _, piece, [] => [piece.reverse]
    | skip + 1, piece, _ :: cs => go most skip piece cs
    | 0, piece, c :: cs =>
        if most = some 1 then [piece.reverse ++ c :: cs]
        else if sep.isPrefixOf (c :: cs) then
          piece.reverse :: go (most.map (· - 1)) (sep.length - 1) [] cs
        else go most 0 (c :: piece) cs

def splitBlank (most : Nat) (cs : List Char) : List (List Char) :=
  match most, cs with
  | 0, _ => []
  | most, cs => go most [] cs
where
  go : Nat → List Char → List Char → List (List Char)
    | _, piece, [] => [piece.reverse]
    | most, piece, c :: cs =>
        if most ≤ 1 then [piece.reverse ++ c :: cs]
        else if Text.isBlank c then piece.reverse :: go (most - 1) [] cs
        else go most (c :: piece) cs

def split : Transform := fun v args => do
  let most ← Args.optionalWord 64 "i64" args.all 1
  let args ← Args.atMost 2 args.all
  let most : Option Nat := most.bind fun n => if 0 ≤ n then some (n.toNat + 1) else none
  let cs := v.display.toList
  let pieces := match Args.optionalText args 0, most with
    | some sep, most => splitText sep.toList most cs
    | none, none => Text.words cs
    | none, some n => splitBlank n cs
  return .iter (pieces.map fun p => .ofString (String.ofList p)) false

def escapeChar : Char → List Char
  | '/' => "&#x2f;".toList
  | c => Markup.entity c

def escape : Transform := fun v args => do
  let _ ← Args.atMost 0 args.all
  match v with
  | .text s safe =>
      return if safe then v else .text (String.ofList (s.toList.flatMap escapeChar)) true
  | v =>
      match v.kind with
      | .undefined | .none | .bool | .number => return .text v.display true
      | _ => return .text (String.ofList (v.display.toList.flatMap escapeChar)) true

def safe : Transform := fun v args => do
  let _ ← Args.atMost 0 args.all
  return .text v.display true

def toList : Transform := fun v args => do
  let _ ← Args.atMost 0 args.all
  return .list (← listItems v)

def sum : Transform := fun v args => do
  let _ ← Args.atMost 0 args.all
  (← v.items).foldlM (fun total v =>
    match v with
    | .undefined => .ok total
    | v =>
        if v.kind == .number then total.add v
        else .error (.refused ("can only sum numbers, got " ++ v.kind.text))) (.int 0)

def least : Transform := fun v args => do
  let _ ← Args.atMost 0 args.all
  match ← listItems v with
  | [] => return .undefined
  | x :: xs => return xs.foldl (fun m v => if v.compare m == .lt then v else m) x

def greatest : Transform := fun v args => do
  let _ ← Args.atMost 0 args.all
  match ← listItems v with
  | [] => return .undefined
  | x :: xs => return xs.foldl (fun m v => if v.compare m == .lt then m else v) x

def lines : Transform := fun v args => do
  let _ ← Args.atMost 0 args.all
  return .list ((Text.lines v.display.toList).map fun l => .ofString (String.ofList l))

def attr : Transform := fun v args => do
  let args ← Args.atMost 1 args.all
  v.getItem (← Args.required args 0)

/-- The items, or the parts of items at a path, that pass a test; those that do not if `invert`. -/
def choose (invert : Bool) (path : Option String) (args : List Value) (v : Value) :
    Except Fault Value := do
  let passes : Value → Except Fault Bool ← match args with
    | [] => pure fun (v : Value) => .ok v.isTrue
    | name :: rest =>
        match Test.table.lookup name.display with
        | some passes => pure fun (v : Value) => passes v rest
        | none => throw (.unknownTest none)
  let chosen ← (← v.items).filterM fun item => do
    let subject ← match path with
      | some path => item.getPath path
      | none => pure item
    return (← passes subject) != invert
  return .list chosen

def select (invert : Bool) : Transform := fun v args => choose invert none args.all v

def selectAttr (invert : Bool) : Transform := fun v args => do
  choose invert (some (← Args.text args.all 0)) args.all.tail v

def table : List (String × Transform) :=
  [("safe", safe), ("escape", escape), ("e", escape), ("upper", ofText Text.upper),
    ("lower", ofText Text.lower), ("title", ofText (titleFrom true)),
    ("capitalize", ofText capitalize), ("replace", replace), ("length", length),
    ("count", length), ("dictsort", dictsort), ("items", pairList), ("reverse", reverse),
    ("trim", trim), ("join", join), ("split", split), ("lines", lines), ("default", orDefault),
    ("d", orDefault), ("round", round), ("abs", abs), ("int", toInt), ("float", toFloat),
    ("attr", attr), ("first", first), ("last", last), ("min", least), ("max", greatest),
    ("sort", sort), ("list", toList), ("string", toText), ("bool", toBool), ("sum", sum),
    ("unique", unique), ("select", select false), ("reject", select true),
    ("selectattr", selectAttr false), ("rejectattr", selectAttr true)]

def mapAttribute (path : Value) (fallback : Value) (v : Value) : Except Fault Value := do
  let parts ← (← v.items).mapM fun item =>
    let found := match path with
      | .text path _ => item.getPath path
      | key => item.getItem key
    match found with
    | .ok .undefined => .ok fallback
    | .ok part => .ok part
    | .error fault =>
        match fallback with
        | .undefined => .error fault
        | fallback => .ok fallback
  return .list parts

/-- Applies a filter by name. `map` applies the filter that its first argument names to each item;
`unknown` is the fault of a name that is none. -/
def applyWith (name : String) (unknown : Fault) (named : Option (List (String × Value))) :
    List Value → Value → Except Fault Value
  | values, v =>
      if name = "map" then
        match Args.named? ⟨values, named⟩ "attribute" with
        | some path => do
            let _ ← Args.atMost 0 values
            let fallback := (Args.named? ⟨values, named⟩ "default").getD .undefined
            let mapped ← mapAttribute path fallback v
            Args.allow ⟨values, named⟩ ["attribute", "default"]
            return mapped
        | none =>
            match values with
            | [] => .error (.refused "filter name is required")
            | .text inner _ :: rest =>
                if inner = "map" ∨ (table.lookup inner).isSome then do
                  let mapped ← (← v.items).mapM (applyWith inner (.unknownFilter none) none rest)
                  return .list mapped
                else .error (.unknownFilter none)
            | _ => .error (.refused "filter name must be a string")
      else
        match table.lookup name with
        | some f => f v ⟨values, named⟩
        | none => .error unknown

end Filters

def applyFilter (name : String) (v : Value) (args : Args) : Except Fault Value :=
  Filters.applyWith name (.unknownFilter (some name)) args.named args.values v

end Haml.Expr
