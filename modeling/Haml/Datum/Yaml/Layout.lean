import Haml.Datum.Yaml.Token
/-! The layout of a stream: open blocks by their columns, and the places where a key may have
begun. -/

namespace Haml.Yaml

structure KeyPlace where
  /-- How many tokens stand in front of it. -/
  position : Nat
  /-- Whether the block around it lets nothing but a key stand there. -/
  isNeeded : Bool
  cursor : Cursor

def KeyPlace.isStale (p : KeyPlace) (k : Cursor) : Bool :=
  p.cursor.line < k.line || p.cursor.index + 1024 < k.index

structure Layout where
  cursor : Cursor
  tokens : Array Token
  /-- The columns of the open blocks, the innermost first. -/
  columns : List Nat
  place : Option KeyPlace
  /-- The places in the flow collections around this one, and outside of them. -/
  outer : List (Option KeyPlace)
  /-- Whether a key may begin here. -/
  mayBegin : Bool

namespace Layout

def start (cs : List Char) : Layout := ⟨.start cs, #[], [], none, [], true⟩

def inFlow (l : Layout) : Bool := !l.outer.isEmpty

def least (l : Layout) : Nat := (l.columns.head?.map (· + 1)).getD 0

def put (t : Token) (l : Layout) : Layout := { l with tokens := l.tokens.push t }

def take (t : Token) (count : Nat) (l : Layout) : Layout :=
  { l.put t with cursor := l.cursor.skip count }

/-! Blocks -/

def endBlocks (l : Layout) : List Nat → Layout
  | [] => l
  | _ :: columns => endBlocks (l.put .blockEnd) columns

def endRightOf (column : Nat) (l : Layout) : Layout :=
  if l.inFlow then l
  else
    let ended := l.columns.takeWhile (column < ·)
    { l.endBlocks ended with columns := l.columns.drop ended.length }

def endAll (l : Layout) : Layout :=
  if l.inFlow then l else { l.endBlocks l.columns with columns := [] }

/-- Starts a block at a column, unless one has started there. Its token stands after `position`
others. -/
def startBlock (column position : Nat) (t : Token) (l : Layout) : Layout :=
  if l.inFlow || column < l.least then l
  else { l with columns := column :: l.columns, tokens := l.tokens.insertIdxIfInBounds position t }

/-! Keys -/

def dropStale (l : Layout) : Option Layout :=
  let isStale (p : Option KeyPlace) := (p.map (·.isStale l.cursor)).getD false
  let isNeeded (p : Option KeyPlace) := (p.map KeyPlace.isNeeded).getD false
  if (l.place :: l.outer).any fun p => isStale p && isNeeded p then none
  else
    let renew (p : Option KeyPlace) := if isStale p then none else p
    some { l with place := renew l.place, outer := l.outer.map renew }

def dropPlace (l : Layout) : Option Layout :=
  if (l.place.map KeyPlace.isNeeded).getD false then none else some { l with place := none }

def keepPlace (l : Layout) : Option Layout :=
  if l.mayBegin then do
    let isNeeded := !l.inFlow && l.columns.head? == some l.cursor.column
    return { ← l.dropPlace with place := some ⟨l.tokens.size, isNeeded, l.cursor⟩ }
  else some l

/-! Marks -/

def startFlow (t : Token) (l : Layout) : Option Layout := do
  let l ← l.keepPlace
  let l := l.take t 1
  return { l with place := none, outer := l.place :: l.outer, mayBegin := true }

def endFlow (t : Token) (l : Layout) : Option Layout := do
  let l ← l.dropPlace
  let l := { l.take t 1 with mayBegin := false }
  match l.outer with
  | [] => return l
  | place :: outer => return { l with place := place, outer := outer }

def comma (l : Layout) : Option Layout := do
  let l ← l.dropPlace
  return { l.take .comma 1 with mayBegin := true }

def startHere (t : Token) (l : Layout) : Option Layout :=
  if l.inFlow then some l
  else if l.mayBegin then some (l.startBlock l.cursor.column l.tokens.size t)
  else none

def item (l : Layout) : Option Layout := do
  let l ← (← l.startHere .listStart).dropPlace
  return { l.take .item 1 with mayBegin := true }

def key (l : Layout) : Option Layout := do
  let l ← (← l.startHere .tableStart).dropPlace
  return { l.take .key 1 with mayBegin := !l.inFlow }

def value (l : Layout) : Option Layout :=
  match l.place with
  | some p =>
      let l := { l with tokens := l.tokens.insertIdxIfInBounds p.position .key }
      let l := l.startBlock p.cursor.column p.position .tableStart
      some { l.take .value 1 with place := none, mayBegin := false }
  | none => do
      let l ← l.startHere .tableStart
      return { l.take .value 1 with mayBegin := !l.inFlow }

def content (read : Cursor → Option (Token × Cursor)) (l : Layout) : Option Layout := do
  let l ← l.keepPlace
  let (t, k) ← read l.cursor
  return { l.put t with cursor := k, mayBegin := false }

def plain (l : Layout) : Option Layout := do
  let l ← l.keepPlace
  let (found, k) ← Yaml.plain l.inFlow l.least l.cursor
  let t := Token.scalar true (String.ofList found.text)
  return { l.put t with cursor := k, mayBegin := found.isBroken }

def block (isFolded : Bool) (l : Layout) : Option Layout := do
  let l ← l.dropPlace
  let (text, k) ← Yaml.block isFolded l.columns.head? l.cursor.next
  return { l.put (.scalar false (String.ofList text)) with cursor := k, mayBegin := true }

def between (l : Layout) (read : Cursor → Option (Token × Cursor)) : Option Layout := do
  let l ← l.endAll.dropPlace
  let (t, k) ← read l.cursor
  return { l.put t with cursor := k, mayBegin := false }

def token (l : Layout) : Option Layout :=
  let k := l.cursor
  match k.rest with
  | [] => none
  | c :: cs =>
      if k.column = 0 && c == '%' then
        l.between fun k => (Directive.read k.next).map fun (d, k) => (.directive d, k)
      else if k.isAtMark then
        l.between fun k => some (if c == '-' then .documentStart else .documentEnd, k.skip 3)
      else if c == '[' then l.startFlow .flowListStart
      else if c == '{' then l.startFlow .flowTableStart
      else if c == ']' then l.endFlow .flowListEnd
      else if c == '}' then l.endFlow .flowTableEnd
      else if c == ',' then l.comma
      else if c == '-' && startsSpace cs then l.item
      else if c == '?' && (l.inFlow || startsSpace cs) then l.key
      else if c == ':' && (l.inFlow || startsSpace cs) then l.value
      else if c == '*' then
        l.content fun k => (name k.next).map fun (text, k) => (.reference text, k)
      else if c == '&' then
        l.content fun k => (name k.next).map fun (text, k) => (.anchor text, k)
      else if c == '!' then
        l.content fun k => (Tag.read l.inFlow k).map fun (t, k) => (.tag t, k)
      else if c == '|' && !l.inFlow then l.block false
      else if c == '>' && !l.inFlow then l.block true
      else if c == '\'' || c == '"' then
        l.content fun k => (quoted k).map fun (text, k) => (.scalar false (String.ofList text), k)
      else if startsPlain l.inFlow (c :: cs) then l.plain
      else none

/-- Drops blanks, comments and line ends. A key may begin on each line outside flow collections,
and no tab may stand in front of it. -/
def skipSpace : Nat → Layout → Layout
  | 0, l => l
  | steps + 1, l =>
      let mayTab := l.inFlow || !l.mayBegin
      let k := (l.cursor.dropWhile fun c => c == ' ' || (mayTab && c == '\t')).dropComment
      match k.rest with
      | [] => { l with cursor := k }
      | c :: _ =>
          if isBreak c then
            skipSpace steps { l with cursor := k.next, mayBegin := l.mayBegin || !l.inFlow }
          else { l with cursor := k }

def run : Nat → Layout → Option Layout
  | 0, _ => none
  | steps + 1, l => do
      let l ← (l.skipSpace (l.cursor.rest.length + 1)).dropStale
      let l := l.endRightOf l.cursor.column
      if l.cursor.isDone then l.endAll.dropPlace else run steps (← l.token)

end Layout

def tokens? (cs : List Char) : Option (List Token) :=
  let l := Layout.start cs
  let l := if l.cursor.startsWith '\ufeff' then { l with cursor := l.cursor.next } else l
  (l.run (cs.length + 1)).map fun l => l.tokens.toList

end Haml.Yaml
