import Haml.Attribute.Set
import Haml.Attribute.Token
import Haml.Error
import Haml.Interpolation
import Haml.Text.Quoted
/-! The attributes of a tag as they are written: shorthands, hashes in braces and lists in
parentheses. -/

namespace Haml

inductive DynamicValue where
  | expression (code : String)
  | interpolated (segments : List Segment)
  deriving DecidableEq, Repr

inductive AttributeEntry where
  | fixed (name : String) (value : AttributeValue)
  | dynamic (name : String) (value : DynamicValue)
  /-- An expression for a whole map of attributes. -/
  | splat (code : String)
  deriving DecidableEq, Repr

namespace AttributeEntry

def expressions : AttributeEntry → List String
  | fixed .. => []
  | dynamic _ (.expression code) => [code]
  | dynamic _ (.interpolated segments) =>
      segments.filterMap fun
        | .expression code => some code
        | .literal _ => none
  | splat code => [code]

theorem mem_expressions {name code : String} {segments : List Segment} :
    code ∈ (dynamic name (.interpolated segments)).expressions ↔ .expression code ∈ segments := by
  rw [expressions, List.mem_filterMap]
  constructor
  · rintro ⟨s, member, found⟩
    cases s with
    | literal text => cases found
    | expression other =>
        cases found
        exact member
  · intro member
    exact ⟨.expression code, member, rfl⟩

end AttributeEntry

namespace Attribute

/-- A text in quotes, without them; its escapes are read if it has any. -/
def unescape (inner : List Char) : Except AttributeFault String :=
  if '\\' ∈ inner then
    match Text.Quoted.read inner with
    | .ok cs => .ok (String.ofList cs)
    | .error fault => .error (.badLiteral (fault.text inner))
  else .ok (String.ofList inner)

def withoutQuotes (text : List Char) : List Char := text.tail.dropLast

def isWordOf (text : List Char) (words : List String) : Bool := String.ofList text ∈ words

def readInteger (text : List Char) : Except AttributeFault Int :=
  let (negative, digits) := Decimal.takeSign text
  let magnitude : Int := Decimal.natOfDigits 10 digits
  let n := if negative then -magnitude else magnitude
  if Decimal.fitsSigned 64 n then .ok n
  else if negative then .error (.badLiteral "number too small to fit in target type")
  else .error (.badLiteral "number too large to fit in target type")

def readNumber (text : List Char) : Except AttributeFault String :=
  if text.any fun c => c == '.' || c == 'e' || c == 'E' then
    match Decimal.read text with
    | .ok x => .ok (Decimal.plainStyle.write x)
    | .error _ => .error (.badLiteral "invalid float literal")
  else toString <$> readInteger text

inductive Literal where
  | value (value : AttributeValue)
  /-- The literal for nothing, which leaves the attribute out. -/
  | nothing
  deriving DecidableEq, Repr

def literal? (t : Token) : Option (Except AttributeFault Literal) :=
  match t.kind with
  | .singleQuoted | .doubleQuoted =>
      some ((fun s => .value (.text s)) <$> unescape (withoutQuotes t.text))
  | .symbol => some (.ok (.value (.text (String.ofList t.text.tail))))
  | .number => some ((fun s => .value (.text s)) <$> readNumber t.text)
  | .name =>
      if isWordOf t.text ["true"] then some (.ok (.value (.flag true)))
      else if isWordOf t.text ["false"] then some (.ok (.value (.flag false)))
      else if isWordOf t.text ["nil", "none", "None"] then some (.ok .nothing)
      else none
  | _ => none

def unescapeSegment : Segment → Except AttributeFault Segment
  | .literal text => .literal <$> unescape text.toList
  | .expression code => .ok (.expression code)

def tokenEntry (line : Nat) (name : String) (t : Token) : Except Error (Option AttributeEntry) :=
  let inner := withoutQuotes t.text
  if t.is .doubleQuoted && Interpolation.isMarked inner then
    match Interpolation.split inner with
    | none => .error (.unterminatedInterpolation line)
    | some segments =>
        match segments.mapM unescapeSegment with
        | .ok segments => .ok (some (.dynamic name (.interpolated segments)))
        | .error fault => .error (.attributeSyntax line fault)
  else
    match literal? t with
    | some (.ok (.value value)) => .ok (some (.fixed name value))
    | some (.ok .nothing) => .ok none
    | some (.error fault) => .error (.attributeSyntax line fault)
    | none => .ok (some (.dynamic name (.expression (String.ofList t.text))))

/-- The entry for a named value; none for the literal nothing. -/
def valueEntry (line : Nat) (name : String) (value : List Token) :
    Except Error (Option AttributeEntry) :=
  match value with
  | [t] => tokenEntry line name t
  | ts => .ok (some (.dynamic name (.expression (String.ofList (Token.texts ts)))))

def colonKey? (t : Token) : Option (Except AttributeFault String) :=
  match t.kind with
  | .name => some (.ok (String.ofList t.text))
  | .singleQuoted | .doubleQuoted => some (unescape (withoutQuotes t.text))
  | _ => none

def rocketKey (t : Token) : Except AttributeFault String :=
  match t.kind with
  | .symbol => .ok (String.ofList t.text.tail)
  | .singleQuoted | .doubleQuoted => unescape (withoutQuotes t.text)
  | _ => .error (.badKey (String.ofList t.text))

/-- The key and value of `key: value`. In `key:value` the value reads as a symbol. -/
def colonPair? (first : Token) (rest : List Token) :
    Option (Except AttributeFault (String × List Token)) :=
  match rest with
  | second :: after =>
      if second.is .colon then (colonKey? first).map fun key => (·, after) <$> key
      else if second.is .symbol then
        (colonKey? first).map fun key => (·, ⟨.name, second.text.tail⟩ :: after) <$> key
      else none
  | [] => none

def rocketPair? (first : Token) (rest : List Token) :
    Option (Except AttributeFault (String × List Token)) :=
  match Token.trim rest with
  | second :: after =>
      if second.is .rocket then some ((·, after) <$> rocketKey first) else none
  | [] => none

/-- One entry of a hash. An entry without key is an expression for a map. -/
def hashEntry (line : Nat) (part : List Token) : Except Error (Option AttributeEntry) :=
  match Token.trim part with
  | [] => .ok none
  | first :: rest =>
      match (colonPair? first rest).or (rocketPair? first rest) with
      | some (.error fault) => .error (.attributeSyntax line fault)
      | some (.ok (name, value)) =>
          match Token.trim value with
          | [] => .error (.attributeSyntax line (.missingValue name))
          | value => valueEntry line name value
      | none => .ok (some (.splat (String.ofList (Token.texts (first :: rest)))))

def ofHash (line : Nat) (inner : List Char) : Except Error (List AttributeEntry) := do
  let entries ← (Token.splitCommas 0 (Token.scan inner)).mapM (hashEntry line)
  return entries.reduceOption

def takeValue (depth : Nat) : List Token → List Token × List Token
  | [] => ([], [])
  | t :: ts =>
      if t.isBlank && depth = 0 then ([], t :: ts)
      else
        let depth := if t.opens then depth + 1 else if t.closes then depth - 1 else depth
        let (value, rest) := takeValue depth ts
        (t :: value, rest)

theorem length_takeValue (depth : Nat) (ts : List Token) :
    (takeValue depth ts).2.length ≤ ts.length := by
  induction ts generalizing depth with
  | nil => simp [takeValue]
  | cons t ts ih =>
      simp only [takeValue]
      split
      · simp
      · exact Nat.le_succ_of_le (ih _)

theorem length_dropWhile_le (p : Token → Bool) (ts : List Token) :
    (ts.dropWhile p).length ≤ ts.length :=
  (List.dropWhile_sublist p).length_le

def ofTokens (line : Nat) : List Token → Except Error (List AttributeEntry)
  | [] => .ok []
  | t :: ts =>
      if t.isBlank then ofTokens line ts
      else if !t.is .name then
        .error (.attributeSyntax line (.expectedName (String.ofList t.text)))
      else
        let name := String.ofList t.text
        match _h : ts.dropWhile Token.isBlank with
        | [] => .ok [.fixed name (.flag true)]
        | s :: rest =>
            if s.is .equals then
              let found := takeValue 0 (rest.dropWhile Token.isBlank)
              if found.1.isEmpty then .error (.attributeSyntax line (.missingValue name))
              else do
                let entry ← valueEntry line name found.1
                let entries ← ofTokens line found.2
                return entry.toList ++ entries
            else do
              let entries ← ofTokens line (s :: rest)
              return .fixed name (.flag true) :: entries
termination_by ts => ts.length
decreasing_by
  · simp
  · have h₁ := length_takeValue 0 (rest.dropWhile Token.isBlank)
    have h₂ := length_dropWhile_le Token.isBlank rest
    have h₃ := length_dropWhile_le Token.isBlank ts
    rw [_h] at h₃
    simp only [List.length_cons] at h₃ ⊢
    omega
  · have h₃ := length_dropWhile_le Token.isBlank ts
    rw [_h] at h₃
    simp only [List.length_cons] at h₃ ⊢
    omega

def ofList (line : Nat) (inner : List Char) : Except Error (List AttributeEntry) :=
  ofTokens line (Token.scan inner)

end Attribute

end Haml
