import Haml.Datum.Yaml.Character
/-! Places in a stream. -/

namespace Haml.Yaml

structure Cursor where
  rest : List Char
  index : Nat
  line : Nat
  column : Nat

namespace Cursor

def start (cs : List Char) : Cursor := ⟨cs, 0, 0, 0⟩

def next (k : Cursor) : Cursor :=
  match k.rest with
  | [] => k
  | c :: cs =>
      if isBreak c then ⟨cs, k.index + 1, k.line + 1, 0⟩
      else ⟨cs, k.index + 1, k.line, k.column + 1⟩

def skip : Nat → Cursor → Cursor
  | 0, k => k
  | count + 1, k => skip count k.next

def isDone (k : Cursor) : Bool := k.rest.isEmpty

def startsWith (k : Cursor) (c : Char) : Bool := k.rest.head? == some c

def isAtMark (k : Cursor) : Bool :=
  k.column = 0 && (k.rest.take 3 == ['-', '-', '-'] || k.rest.take 3 == ['.', '.', '.']) &&
    startsSpace (k.rest.drop 3)

def takeWhile (p : Char → Bool) (k : Cursor) : List Char × Cursor :=
  let text := k.rest.takeWhile p
  (text, k.skip text.length)

def dropWhile (p : Char → Bool) (k : Cursor) : Cursor := (k.takeWhile p).2

def dropComment (k : Cursor) : Cursor :=
  if k.startsWith '#' then k.dropWhile fun c => !isBreak c else k

/-- Drops blanks and a comment, and the end of the line; none if something else stands there. -/
def endOfLine (k : Cursor) : Option Cursor :=
  let k := (k.dropWhile isBlank).dropComment
  match k.rest with
  | [] => some k
  | c :: _ => if isBreak c then some k.next else none

end Cursor

end Haml.Yaml
