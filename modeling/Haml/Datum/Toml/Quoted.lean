import Haml.Datum.Json
/-! Texts in quotes in TOML. -/

namespace Haml.Toml

open Json (Reader)

def isControl (c : Char) : Bool := (c.toNat < 32 && c != '\t') || c.toNat = 127

def isBlank (c : Char) : Bool := c == ' ' || c == '\t'

def lineEnd? : List Char → Option (List Char)
  | '\n' :: rest => some rest
  | '\r' :: '\n' :: rest => some rest
  | _ => none

def escape? : Char → Option Char
  | 'b' => some '\x08'
  | 't' => some '\t'
  | 'n' => some '\n'
  | 'f' => some '\x0c'
  | 'r' => some '\r'
  | 'e' => some '\x1b'
  | '"' => some '"'
  | '\\' => some '\\'
  | _ => none

def codeLength? : Char → Option Nat
  | 'x' => some 2
  | 'u' => some 4
  | 'U' => some 8
  | _ => none

def escaped? (cs : List Char) : Option (Char × List Char) :=
  match cs with
  | [] => none
  | c :: rest =>
      match codeLength? c with
      | some count => do
          if rest.length < count then none
          let n ← Json.codeUnit? (rest.take count)
          if n.isValidChar then some (Char.ofNat n, rest.drop count) else none
      | none => (escape? c).map (·, rest)

def basic : Nat → Reader (List Char)
  | 0, _ => none
  | _, [] => none
  | steps + 1, c :: cs =>
      if c == '"' then some ([], cs)
      else if c == '\\' then do
        let (c, rest) ← escaped? cs
        let (text, after) ← basic steps rest
        return (c :: text, after)
      else if isControl c then none
      else (basic steps cs).map fun (text, after) => (c :: text, after)

def literal : Reader (List Char)
  | [] => none
  | c :: cs =>
      if c == '\'' then some ([], cs)
      else if isControl c then none
      else (literal cs).map fun (text, after) => (c :: text, after)

def skipLines : List Char → List Char
  | [] => []
  | c :: cs => if isBlank c || c == '\n' || c == '\r' then skipLines cs else c :: cs

def closing? (quote : Char) (cs : List Char) : Option (List Char × List Char) :=
  let count := (cs.takeWhile (· == quote)).length
  if count < 3 then none
  else
    let kept := min (count - 3) 2
    some (List.replicate kept quote, cs.drop (kept + 3))

/-- Reads a text of several lines up to its closing quotes. Without escapes it is literal. -/
def long (escapes : Bool) (quote : Char) : Nat → Reader (List Char)
  | 0, _ => none
  | _, [] => none
  | steps + 1, c :: cs =>
      match (if c == quote then closing? quote (c :: cs) else none) with
      | some found => some found
      | none =>
          let keep (c : Char) (rest : List Char) : Option (List Char × List Char) :=
            (long escapes quote steps rest).map fun (text, after) => (c :: text, after)
          match lineEnd? (c :: cs) with
          | some rest => keep '\n' rest
          | none =>
              if escapes && c == '\\' then
                match lineEnd? (cs.dropWhile isBlank) with
                | some rest => long escapes quote steps (skipLines rest)
                | none =>
                    match escaped? cs with
                    | some (c, rest) => keep c rest
                    | none => none
              else if isControl c then none
              else keep c cs

def dropLineEnd (cs : List Char) : List Char := (lineEnd? cs).getD cs

def long? (cs : List Char) : Option (Option (List Char × List Char)) :=
  match cs with
  | '"' :: '"' :: '"' :: rest => some (long true '"' (rest.length + 1) (dropLineEnd rest))
  | '\'' :: '\'' :: '\'' :: rest => some (long false '\'' (rest.length + 1) (dropLineEnd rest))
  | _ => none

def short? (cs : List Char) : Option (Option (List Char × List Char)) :=
  match cs with
  | '"' :: rest => some (basic (rest.length + 1) rest)
  | '\'' :: rest => some (literal rest)
  | _ => none

end Haml.Toml
