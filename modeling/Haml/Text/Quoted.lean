import Haml.Decimal.Text
/-! Quoted text: a text in which quotes group characters and backslashes escape them inside double
quotes. Reading it removes the quotes. -/

namespace Haml.Text.Quoted

inductive CodePointFault where
  | noBrace
  | empty (digits : String)
  | notHex (digits : String)
  | tooLarge (digits : String)
  | notScalar (value : Nat)
  deriving DecidableEq, Repr

def CodePointFault.text : CodePointFault → String
  | noBrace => "expected '\x7b' character in unicode escape"
  | empty digits =>
      "could not parse " ++ digits ++ " as u32 hex: cannot parse integer from empty string"
  | notHex digits => "could not parse " ++ digits ++ " as u32 hex: invalid digit found in string"
  | tooLarge digits =>
      "could not parse " ++ digits ++ " as u32 hex: number too large to fit in target type"
  | notScalar value => "could not parse " ++ toString value ++ " as a unicode char"

inductive Fault where
  | badEscape (escape : String) (index : Nat)
  | badCodePoint (fault : CodePointFault) (index : Nat)
  deriving DecidableEq, Repr

def Fault.text (whole : List Char) : Fault → String
  | badEscape escape index =>
      "invalid escape " ++ escape ++ " at " ++ toString index ++ " in " ++ String.ofList whole
  | badCodePoint fault index =>
      "\\u could not be parsed at " ++ toString index ++ " in " ++ String.ofList whole ++ ": " ++
        fault.text

def escapes : List (Char × Char) :=
  [('a', '\x07'), ('b', '\x08'), ('v', '\x0b'), ('f', '\x0c'), ('n', '\n'), ('r', '\r'),
    ('t', '\t'), ('e', '\x1b'), ('E', '\x1b'), ('\\', '\\'), ('\'', '\''), ('"', '"'),
    ('$', '$'), ('\x60', '\x60'), (' ', ' ')]

def isHexDigit (c : Char) : Bool :=
  c.isDigit || ('a' ≤ c && c ≤ 'f') || ('A' ≤ c && c ≤ 'F')

def hexValue (bound : Nat) (cs : List Char) : Except (String → CodePointFault) Nat :=
  let digits := match cs with
    | '+' :: rest => rest
    | _ => cs
  if cs.isEmpty then .error .empty
  else if digits.isEmpty then .error .notHex
  else
    digits.foldlM (fun value c =>
      if !isHexDigit c then .error .notHex
      else
        let next := value * 16 + Decimal.digitValue c
        if bound < next then .error .tooLarge else .ok next) 0

def codePoint (digits : List Char) : Except CodePointFault Char :=
  match hexValue 0xFFFFFFFF digits with
  | .error fault => .error (fault (String.ofList digits))
  | .ok value =>
      if h : value.isValidChar then .ok (Char.ofNatAux value h) else .error (.notScalar value)

inductive Mode where
  | bare
  | single
  | double
  /-- After a backslash in double quotes. -/
  | escape
  /-- After `\u` in double quotes, which stood at `index`. -/
  | codePoint (index : Nat)
  /-- In the braces of a code point. -/
  | digits (index : Nat) (read : List Char)

/-- Reads from position `index` on; a code point left open at the end counts as closed. -/
def readFrom (mode : Mode) (index : Nat) : List Char → Except Fault (List Char)
  | [] =>
      match mode with
      | .escape => .error (.badEscape "\\" (index - 1))
      | .codePoint start => .error (.badCodePoint .noBrace start)
      | .digits start read =>
          match Quoted.codePoint read with
          | .ok c => .ok [c]
          | .error fault => .error (.badCodePoint fault start)
      | _ => .ok []
  | c :: cs =>
      match mode with
      | .single =>
          if c == '\'' then readFrom .bare (index + 1) cs
          else (c :: ·) <$> readFrom .single (index + 1) cs
      | .double =>
          if c == '"' then readFrom .bare (index + 1) cs
          else if c == '\\' then readFrom .escape (index + 1) cs
          else (c :: ·) <$> readFrom .double (index + 1) cs
      | .bare =>
          if c == '\'' then readFrom .single (index + 1) cs
          else if c == '"' then readFrom .double (index + 1) cs
          else (c :: ·) <$> readFrom .bare (index + 1) cs
      | .escape =>
          if c == 'u' then readFrom (.codePoint index) (index + 1) cs
          else
            match escapes.lookup c with
            | some d => (d :: ·) <$> readFrom .double (index + 1) cs
            | none => .error (.badEscape (String.ofList ['\\', c]) index)
      | .codePoint start =>
          if c == '{' then readFrom (.digits start []) (index + 1) cs
          else .error (.badCodePoint .noBrace start)
      | .digits start read =>
          if c == '}' then
            match Quoted.codePoint read with
            | .ok d => (d :: ·) <$> readFrom .double (index + 1) cs
            | .error fault => .error (.badCodePoint fault start)
          else readFrom (.digits start (read ++ [c])) (index + 1) cs

def read (cs : List Char) : Except Fault (List Char) := readFrom .bare 0 cs

end Haml.Text.Quoted
