import Haml.Datum.Yaml.Cursor
/-! Scalars in quotes in YAML. -/

namespace Haml.Yaml

def escape? : Char → Option Char
  | '0' => some '\x00'
  | 'a' => some '\x07'
  | 'b' => some '\x08'
  | 't' => some '\t'
  | '\t' => some '\t'
  | 'n' => some '\n'
  | 'v' => some '\x0b'
  | 'f' => some '\x0c'
  | 'r' => some '\r'
  | 'e' => some '\x1b'
  | ' ' => some ' '
  | '"' => some '"'
  | '/' => some '/'
  | '\\' => some '\\'
  | 'N' => some '\u0085'
  | '_' => some '\u00a0'
  | 'L' => some '\u2028'
  | 'P' => some '\u2029'
  | _ => none

def codeLength? : Char → Option Nat
  | 'x' => some 2
  | 'u' => some 4
  | 'U' => some 8
  | _ => none

def escaped? (cs : List Char) : Option (Char × Nat) :=
  match cs with
  | [] => none
  | c :: rest =>
      match codeLength? c with
      | some count => do
          if rest.length < count then none
          let n ← Json.codeUnit? (rest.take count)
          if n.isValidChar then some (Char.ofNat n, count + 1) else none
      | none => (escape? c).map (·, 1)

/-- Reads a text in double quotes after the first. A line end after a backslash is dropped. -/
def double : Nat → Cursor → Option (List Char × Cursor)
  | 0, _ => none
  | steps + 1, k =>
      let put (text : List Char) (k : Cursor) : Option (List Char × Cursor) :=
        (double steps k).map fun (more, k) => (text ++ more, k)
      match k.rest with
      | [] => none
      | c :: cs =>
          if k.isAtMark then none
          else if c == '"' then some ([], k.next)
          else if isSpace c then
            let (space, k) := k.takeWhile isSpace
            put (foldSpace space) k
          else if c == '\\' then
            if (cs.head?.map isBreak).getD false then
              let (space, k) := (k.skip 2).takeWhile isSpace
              put (space.filter isBreak) k
            else
              match escaped? cs with
              | some (c, count) => put [c] (k.skip (count + 1))
              | none => none
          else put [c] k.next

def single : Nat → Cursor → Option (List Char × Cursor)
  | 0, _ => none
  | steps + 1, k =>
      let put (text : List Char) (k : Cursor) : Option (List Char × Cursor) :=
        (single steps k).map fun (more, k) => (text ++ more, k)
      match k.rest with
      | [] => none
      | c :: cs =>
          if k.isAtMark then none
          else if c == '\'' then
            if cs.head? == some '\'' then put ['\''] (k.skip 2) else some ([], k.next)
          else if isSpace c then
            let (space, k) := k.takeWhile isSpace
            put (foldSpace space) k
          else put [c] k.next

def quoted (k : Cursor) : Option (List Char × Cursor) :=
  let steps := k.rest.length + 1
  if k.startsWith '"' then double steps k.next else single steps k.next

end Haml.Yaml
