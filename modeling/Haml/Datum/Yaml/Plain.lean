import Haml.Datum.Yaml.Cursor
/-! Scalars without quotes in YAML. -/

namespace Haml.Yaml

def indicators : List Char :=
  ['-', '?', ':', ',', '[', ']', '{', '}', '#', '&', '*', '!', '|', '>', '\'', '"', '%', '@',
    '\x60']

def startsPlain (inFlow : Bool) (cs : List Char) : Bool :=
  match cs with
  | [] => false
  | c :: rest =>
      (!isSpace c && !indicators.contains c) || c == '-' ||
        (!inFlow && (c == '?' || c == ':') && !startsSpace rest)

/-- The text up to white space or to what ends a plain scalar. Inside flow collections none if a
colon stands in front of one of their marks. -/
def word? (inFlow : Bool) : List Char → Option (List Char)
  | [] => some []
  | c :: cs =>
      let isUnclear :=
        inFlow && c == ':' && (cs.head?.map fun d => d == '?' || isFlowMark d).getD false
      if isSpace c then some []
      else if isUnclear then none
      else if (c == ':' && startsSpace cs) || (inFlow && isFlowMark c) then some []
      else (word? inFlow cs).map (c :: ·)

def hasTab (least : Nat) (space : List Char) : Bool :=
  ((space.splitOnP isBreak).drop 1).any fun line => (line.take least).contains '\t'

structure Plain where
  text : List Char
  isBroken : Bool

/-- Reads a plain scalar whose further lines start at `least` columns; `space` is what stands in
front. -/
def plainFrom (inFlow : Bool) (least : Nat) :
    Nat → List Char → Cursor → Option (Plain × Cursor)
  | 0, _, _ => none
  | steps + 1, space, k =>
      if k.isAtMark || k.startsWith '#' then some (⟨[], space.any isBreak⟩, k)
      else do
        let word ← word? inFlow k.rest
        let text := if word.isEmpty then [] else foldSpace space ++ word
        let (after, next) := (k.skip word.length).takeWhile isSpace
        if after.isEmpty then return (⟨text, word.isEmpty && space.any isBreak⟩, next)
        else if hasTab least after then none
        else if !inFlow && next.column < least then return (⟨text, after.any isBreak⟩, next)
        else
          let (more, k) ← plainFrom inFlow least steps after next
          return (⟨text ++ more.text, more.isBroken⟩, k)

def plain (inFlow : Bool) (least : Nat) (k : Cursor) : Option (Plain × Cursor) :=
  plainFrom inFlow least (k.rest.length + 1) [] k

end Haml.Yaml
