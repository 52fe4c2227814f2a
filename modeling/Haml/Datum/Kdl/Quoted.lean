import Haml.Datum.Json
/-! Texts in KDL: blanks and comments between them, names without quotes, and quoted and raw texts of
one line or several. -/

namespace Haml.Kdl

open Json (Reader)

def isBlank (c : Char) : Bool :=
  let n := c.toNat
  c == ' ' || c == '\t' || n == 0xA0 || n == 0x1680 || (0x2000 ≤ n && n ≤ 0x200A) ||
    n == 0x202F || n == 0x205F || n == 0x3000

def isNewline (c : Char) : Bool :=
  let n := c.toNat
  (0x0A ≤ n && n ≤ 0x0D) || n == 0x85 || n == 0x2028 || n == 0x2029

def newline? : List Char → Option (List Char)
  | '\r' :: '\n' :: rest => some rest
  | c :: rest => if isNewline c then some rest else none
  | [] => none

def isForbidden (c : Char) : Bool :=
  let n := c.toNat
  n ≤ 0x08 || (0x0E ≤ n && n ≤ 0x1F) || n == 0x7F || n == 0x200E || n == 0x200F ||
    (0x202A ≤ n && n ≤ 0x202E) || (0x2066 ≤ n && n ≤ 0x2069) || n == 0xFEFF

def isNameChar (c : Char) : Bool :=
  !isBlank c && !isNewline c && !isForbidden c &&
    !(['\\', '/', '(', ')', '{', '}', '[', ']', ';', '"', '#', '='].contains c)

def startsNumber (cs : List Char) : Bool :=
  let body := match cs with
    | '+' :: cs => cs
    | '-' :: cs => cs
    | cs => cs
  match body with
  | '.' :: c :: _ => c.isDigit
  | c :: _ => c.isDigit
  | [] => false

def reserved : List String := ["true", "false", "null", "inf", "-inf", "nan"]

def name? (cs : List Char) : Option (List Char × List Char) :=
  let name := cs.takeWhile isNameChar
  if name.isEmpty || startsNumber name || reserved.contains (String.ofList name) then none
  else some (name, cs.dropWhile isNameChar)

def escape? : Char → Option Char
  | 'n' => some '\n'
  | 'r' => some '\r'
  | 't' => some '\t'
  | '\\' => some '\\'
  | '"' => some '"'
  | 'b' => some '\x08'
  | 'f' => some '\x0c'
  | 's' => some ' '
  | _ => none

def escaped? (cs : List Char) : Option (List Char × List Char) :=
  match cs with
  | 'u' :: '{' :: rest => do
      let digits := rest.takeWhile (· != '}')
      if digits.isEmpty || 6 < digits.length || digits.length = rest.length then none
      let n ← Json.codeUnit? digits
      if n.isValidChar then some ([Char.ofNat n], rest.drop (digits.length + 1)) else none
  | c :: rest =>
      if isBlank c || isNewline c then some ([], rest.dropWhile fun c => isBlank c || isNewline c)
      else (escape? c).map fun c => ([c], rest)
  | [] => none

def quoted : Nat → Reader (List Char)
  | 0, _ => none
  | _, [] => none
  | steps + 1, c :: cs =>
      if c == '"' then some ([], cs)
      else if c == '\\' then do
        let (found, rest) ← escaped? cs
        let (text, after) ← quoted steps rest
        return (found ++ text, after)
      else if isNewline c || isForbidden c then none
      else (quoted steps cs).map fun (text, after) => (c :: text, after)

def upTo (ending : List Char) (long : Bool) : Reader (List Char)
  | [] => none
  | c :: cs =>
      match ending.isPrefixOf? (c :: cs) with
      | some rest => some ([], rest)
      | none =>
          if isForbidden c || (!long && isNewline c) then none
          else (upTo ending long cs).map fun (text, after) => (c :: text, after)

/-- Reads the source of a text of several lines up to its closing quotes; escapes stay. -/
def longSource : Nat → Reader (List Char)
  | 0, _ => none
  | steps + 1, cs =>
      match cs with
      | '"' :: '"' :: '"' :: rest => some ([], rest)
      | '\\' :: c :: rest =>
          (longSource steps rest).map fun (text, after) => ('\\' :: c :: text, after)
      | c :: rest =>
          if isForbidden c then none
          else (longSource steps rest).map fun (text, after) => (c :: text, after)
      | [] => none

def splitLines (line : List Char) : Bool → List Char → List (List Char)
  | _, [] => [line]
  | true, _ :: cs => splitLines line false cs
  | false, c :: cs =>
      if isNewline c then line :: splitLines [] (c == '\r' && cs.head? == some '\n') cs
      else splitLines (line ++ [c]) false cs

/-- The lines between the quotes of a text of several lines, without the white space that its last
line has; every line has to begin with it, unless it is blank. -/
def dedent (source : List Char) : Option (List Char) :=
  match splitLines [] false source with
  | first :: rest =>
      let lead := rest.getLast?.getD []
      if !first.isEmpty || rest.isEmpty || !lead.all isBlank then none
      else do
        let lines ← rest.dropLast.mapM fun line =>
          if line.all isBlank then some [] else lead.isPrefixOf? line
        some (List.intercalate ['\n'] lines)
  | [] => none

def unescape : Nat → List Char → Option (List Char)
  | 0, _ => none
  | _, [] => some []
  | steps + 1, '\\' :: cs => do
      let (found, rest) ← escaped? cs
      return found ++ (← unescape steps rest)
  | steps + 1, c :: cs => (unescape steps cs).map (c :: ·)

def dropEscapedBlanks : Nat → List Char → List Char
  | 0, cs => cs
  | steps + 1, '\\' :: c :: cs =>
      if isBlank c || isNewline c then
        dropEscapedBlanks steps (cs.dropWhile fun c => isBlank c || isNewline c)
      else '\\' :: c :: dropEscapedBlanks steps cs
  | steps + 1, c :: cs => c :: dropEscapedBlanks steps cs
  | _, [] => []

def string? (cs : List Char) : Option (Option (List Char × List Char)) :=
  match cs with
  | '"' :: '"' :: '"' :: rest => some do
      let (source, after) ← longSource (rest.length + 1) rest
      let lines ← dedent (dropEscapedBlanks (source.length + 1) source)
      return (← unescape (lines.length + 1) lines, after)
  | '"' :: rest => some (quoted (rest.length + 1) rest)
  | '#' :: _ =>
      let marks := cs.takeWhile (· == '#')
      match cs.drop marks.length with
      | '"' :: '"' :: '"' :: rest => some do
          let (source, after) ← upTo ("\"\"\"".toList ++ marks) true rest
          return (← dedent source, after)
      | '"' :: rest => some (upTo ('"' :: marks) false rest)
      | _ => none
  | _ => none

def text (cs : List Char) : Option (String × List Char) :=
  ((string? cs).getD (name? cs)).map fun (t, rest) => (String.ofList t, rest)

end Haml.Kdl
