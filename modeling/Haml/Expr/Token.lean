import Haml.Expr.Fault
import Haml.Text.Quoted
/-! The tokens of an expression. -/

namespace Haml.Expr

inductive Symbol where
  | plus
  | minus
  | star
  | slash
  | doubleSlash
  | percent
  | doubleStar
  | dot
  | comma
  | colon
  | tilde
  | assign
  | bar
  | eq
  | ne
  | gt
  | ge
  | lt
  | le
  | openSquare
  | closeSquare
  | openParen
  | closeParen
  | openBrace
  | closeBrace
  deriving DecidableEq, Repr

inductive Token where
  | name (text : String)
  | text (value : String)
  | int (value : Nat)
  | float (value : Float)
  | symbol (s : Symbol)
  /-- Text that is no token; a reader fails when it gets here. -/
  | bad (fault : Fault)

namespace Token

def isBlank (c : Char) : Bool :=
  c == ' ' || c == '\t' || c == '\n' || c == '\r' || c == '\x0c'

def isNameStart (c : Char) : Bool := c.isAlpha || c == '_'

def isNameChar (c : Char) : Bool := c.isAlphanum || c == '_'

/-- The length of a text in quotes after its opening quote, without the closing one; `none` if it
does not end. -/
def textLength (quote : Char) (escaped : Bool) : List Char → Option Nat
  | [] => none
  | c :: cs =>
      if !escaped && c == quote then some 0
      else (textLength quote (!escaped && c == '\\') cs).map (· + 1)

def escapes : List (Char × Char) :=
  [('"', '"'), ('\\', '\\'), ('/', '/'), ('\'', '\''), ('b', '\x08'), ('f', '\x0c'),
    ('n', '\n'), ('r', '\r'), ('t', '\t')]

def hexUnit? (cs : List Char) : Option Nat :=
  if cs.length < 4 then none
  else
    match Text.Quoted.hexValue 0xFFFF cs with
    | .ok n => some n
    | .error _ => none

def charOf? (n : Nat) : Option Char :=
  if h : n.isValidChar then some (Char.ofNatAux n h) else none

def isOctalDigit (c : Char) : Bool := '0' ≤ c && c ≤ '7'

def hexByte? (cs : List Char) : Option Char :=
  match Text.Quoted.hexValue 0xFF cs with
  | .ok n => some (Char.ofNat n)
  | .error _ => none

def octalByte? (cs : List Char) : Option Char :=
  let n := Decimal.natOfDigits 8 cs
  if n < 256 then some (Char.ofNat n) else none

def before (c : Option Char) (rest : Option (List Char)) : Option (List Char) :=
  c.bind fun c => rest.map (c :: ·)

/-- Reads the escapes of a text. `high` holds the first half of a character that is written in two
units, until the second half follows. A backslash before any other character stands for itself. -/
def unescape (high : Option Nat) : List Char → Option (List Char)
  | [] => if high.isSome then none else some []
  | '\\' :: 'u' :: a :: b :: c :: d :: cs =>
      match hexUnit? [a, b, c, d] with
      | none => none
      | some unit =>
          let paired := 0xD800 ≤ unit && unit < 0xE000
          match high with
          | none =>
              if paired then unescape (some unit) cs else before (charOf? unit) (unescape none cs)
          | some first =>
              if first < 0xDC00 && 0xDC00 ≤ unit && unit < 0xE000 then
                before (charOf? (0x10000 + (first - 0xD800) * 0x400 + (unit - 0xDC00)))
                  (unescape none cs)
              else none
  | '\\' :: 'x' :: a :: b :: cs =>
      if high.isSome then none else before (hexByte? [a, b]) (unescape none cs)
  | '\\' :: c :: cs =>
      if high.isSome then none
      else
        match escapes.lookup c with
        | some ch => before (some ch) (unescape none cs)
        | none =>
            if c == 'u' || c == 'x' then none
            else if isOctalDigit c then
              match cs with
              | d :: rest =>
                  if isOctalDigit d then
                    match rest with
                    | e :: more =>
                        if isOctalDigit e then before (octalByte? [c, d, e]) (unescape none more)
                        else before (octalByte? [c, d]) (unescape none (e :: more))
                    | [] => before (octalByte? [c, d]) (some [])
                  else before (octalByte? [c]) (unescape none (d :: rest))
              | [] => before (octalByte? [c]) (some [])
            else (unescape none cs).map fun rest => '\\' :: c :: rest
  | c :: cs =>
      if high.isSome || c == '\\' then none else before (some c) (unescape none cs)

inductive NumberState where
  | radix
  | integer
  | fraction
  | exponent
  | exponentSign
  deriving DecidableEq, Repr

def NumberState.isFloat : NumberState → Bool
  | radix | integer => false
  | _ => true

def NumberState.next? (hex : Bool) (state : NumberState) (c : Char) : Option NumberState :=
  if c.isDigit then some (if state = exponent then exponentSign else state)
  else if c == '_' then some state
  else
    match state with
    | radix => if hex && Text.Quoted.isHexDigit c then some radix else none
    | integer =>
        if c == '.' then some fraction
        else if c == 'e' || c == 'E' then some exponent
        else none
    | fraction => if c == 'e' || c == 'E' then some exponent else none
    | exponent => if c == '+' || c == '-' then some exponentSign else none
    | exponentSign => none

def numberRun (hex : Bool) (state : NumberState) : List Char → List Char × NumberState
  | [] => ([], state)
  | c :: cs =>
      match state.next? hex c with
      | some state =>
          let (run, last) := numberRun hex state cs
          (c :: run, last)
      | none => ([], state)

def radixOf : Char → Option Nat
  | 'b' | 'B' => some 2
  | 'o' | 'O' => some 8
  | 'x' | 'X' => some 16
  | _ => none

def isDigitOf (radix : Nat) (c : Char) : Bool :=
  Text.Quoted.isHexDigit c && Decimal.digitValue c < radix

def intToken (radix : Nat) (digits : List Char) : Token :=
  let n := Decimal.natOfDigits radix digits
  if digits.isEmpty || !digits.all (isDigitOf radix) || !Decimal.fitsUnsigned 128 n then
    .bad (.syntaxError "invalid integer")
  else .int n

def floatToken (digits : List Char) : Token :=
  match Decimal.read digits with
  | .ok x => .float x
  | .error _ => .bad (.syntaxError "invalid float")

def number (cs : List Char) : Token × Nat :=
  let radix? := match cs with
    | '0' :: r :: _ => radixOf r
    | _ => none
  let radix := radix?.getD 10
  let lead := if radix?.isSome then 2 else 0
  let start := if radix?.isSome then NumberState.radix else .integer
  let (run, state) := numberRun (radix == 16) start (cs.drop lead)
  let digits := run.filter (· ≠ '_')
  let token :=
    if run.getLast? = some '_' then .bad (.syntaxError "'_' may not occur at end of number")
    else if state.isFloat then floatToken digits
    else intToken radix digits
  (token, lead + run.length)

def textToken (inner : List Char) : Token :=
  if '\\' ∈ inner then
    match unescape none inner with
    | some cs => .text (String.ofList cs)
    | none => .bad .badEscape
  else .text (String.ofList inner)

def symbol2? : Char → Char → Option Symbol
  | '/', '/' => some .doubleSlash
  | '*', '*' => some .doubleStar
  | '=', '=' => some .eq
  | '!', '=' => some .ne
  | '>', '=' => some .ge
  | '<', '=' => some .le
  | _, _ => none

def symbol1? : Char → Option Symbol
  | '+' => some .plus
  | '-' => some .minus
  | '*' => some .star
  | '/' => some .slash
  | '%' => some .percent
  | '.' => some .dot
  | ',' => some .comma
  | ':' => some .colon
  | '~' => some .tilde
  | '|' => some .bar
  | '=' => some .assign
  | '>' => some .gt
  | '<' => some .lt
  | '(' => some .openParen
  | ')' => some .closeParen
  | '[' => some .openSquare
  | ']' => some .closeSquare
  | '{' => some .openBrace
  | '}' => some .closeBrace
  | _ => none

def first (c : Char) (cs : List Char) : Token × Nat :=
  match cs.head?.bind (symbol2? c) with
  | some s => (.symbol s, 1)
  | none =>
      match symbol1? c with
      | some s => (.symbol s, 0)
      | none =>
          if c == '"' || c == '\'' then
            match textLength c false cs with
            | some n => (textToken (cs.take n), n + 1)
            | none => (.bad (.syntaxError "unexpected end of string"), 0)
          else if c.isDigit then
            let (token, n) := number (c :: cs)
            (token, n - 1)
          else if isNameStart c then
            let rest := cs.takeWhile isNameChar
            (.name (String.ofList (c :: rest)), rest.length)
          else (.bad (.syntaxError "unexpected character"), 0)

def scan : List Char → List Token
  | [] => []
  | c :: cs =>
      if isBlank c then scan cs
      else
        match first c cs with
        | (.bad fault, _) => [.bad fault]
        | (token, n) => token :: scan (cs.drop n)
termination_by cs => cs.length
decreasing_by
  all_goals
    simp only [List.length_drop, List.length_cons]
    omega

end Token

end Haml.Expr
