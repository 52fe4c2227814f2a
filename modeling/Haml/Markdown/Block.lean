import Haml.Markdown.Inline
import Haml.Text.Lines
/-! Markdown blocks: paragraphs, headings, quotes, lists, code and markup, read from lines. -/

namespace Haml.Markdown

inductive Block where
  | paragraph (text : List Char)
  | heading (level : Nat) (text : List Char)
  | rule
  /-- Code, which may lack its closing fence. -/
  | code (isClosed : Bool) (language : List Char) (text : List Char)
  | markup (text : List Char)
  | quote (inner : List Block)
  /-- A list, numbered from its start if it has one; `loose` if its paragraphs stand apart. -/
  | list (start : Option Nat) (loose : Bool) (items : List (List Block))
  | definition (d : Definition)

namespace Blocks

/-- A line of a container, and the column where it starts. A lazy line lacks the container's mark
and goes on with a paragraph. -/
structure Line where
  text : List Char
  column : Nat
  isLazy : Bool

/-- The width of the white space in front of a text that starts at a column; tabs reach up to stops
of four columns. -/
def widthFrom (column : Nat) : List Char → Nat
  | ' ' :: cs => 1 + widthFrom (column + 1) cs
  | '\t' :: cs => 4 - column % 4 + widthFrom (4 + column - column % 4) cs
  | _ => 0

/-- Drops columns of white space. Of a tab that reaches further the rest is left as spaces. -/
def dropFrom (column : Nat) : Nat → List Char → List Char
  | 0, cs => cs
  | count + 1, ' ' :: cs => dropFrom (column + 1) count cs
  | count + 1, '\t' :: cs =>
      let width := 4 - column % 4
      if width ≤ count + 1 then dropFrom (column + width) (count + 1 - width) cs
      else List.replicate (width - (count + 1)) ' ' ++ cs
  | _, cs => cs

def isBlankLine (cs : List Char) : Bool := cs.all Inlines.isSpace

namespace Line

def isBlank (l : Line) : Bool := isBlankLine l.text

def indent (l : Line) : Nat := widthFrom l.column l.text

def dropIndent (count : Nat) (l : Line) : Line :=
  ⟨dropFrom l.column count l.text, l.column + min count l.indent, l.isLazy⟩

def drop (count : Nat) (l : Line) : Line :=
  ⟨l.text.drop count, l.column + count, l.isLazy⟩

def body (l : Line) : List Char := l.text.dropWhile Inlines.isSpace

end Line

def trim (cs : List Char) : List Char :=
  Text.dropEnd Inlines.isSpace (cs.dropWhile Inlines.isSpace)

/-! What single lines begin -/

def isRule (cs : List Char) : Bool :=
  let marks := cs.filter fun c => !Inlines.isSpace c
  3 ≤ marks.length && (['*', '-', '_'].any fun m => marks.all (· == m))

def heading? (cs : List Char) : Option (Nat × List Char) :=
  let level := (cs.takeWhile (· == '#')).length
  let rest := cs.drop level
  if level = 0 || 6 < level || !((rest.head?.map Inlines.isSpace).getD true) then none
  else
    let body := trim rest
    let bare := Text.dropEnd (· == '#') body
    let closed := bare.isEmpty || (bare.getLast?.map Inlines.isSpace).getD false
    some (level, if closed then trim bare else body)

def fence? (cs : List Char) : Option (Char × Nat × List Char) :=
  match cs with
  | c :: _ =>
      if c == '\x60' || c == '~' then
        let count := (cs.takeWhile (· == c)).length
        let info := trim (cs.drop count)
        if 3 ≤ count && !(c == '\x60' && info.contains '\x60') then some (c, count, info) else none
      else none
  | [] => none

def closesFence (mark : Char) (count : Nat) (l : Line) : Bool :=
  let run := (l.body.takeWhile (· == mark)).length
  l.indent < 4 && count ≤ run && isBlankLine (l.body.drop run)

def underline? (l : Line) : Option Nat :=
  let body := Text.dropEnd Inlines.isSpace l.body
  if l.isLazy || 4 ≤ l.indent || body.isEmpty then none
  else if body.all (· == '=') then some 1
  else if body.all (· == '-') then some 2
  else none

inductive Marker where
  | bullet (mark : Char)
  | number (start : Nat) (mark : Char)
  deriving DecidableEq

def Marker.isLike : Marker → Marker → Bool
  | .bullet a, .bullet b => a == b
  | .number _ a, .number _ b => a == b
  | _, _ => false

def marker? (cs : List Char) : Option (Marker × Nat) :=
  let found : Option (Marker × Nat) := match cs with
    | c :: _ =>
        if c == '-' || c == '+' || c == '*' then some (.bullet c, 1)
        else
          let digits := cs.takeWhile Char.isDigit
          match cs.drop digits.length with
          | d :: _ =>
              if !digits.isEmpty && digits.length ≤ 9 && (d == '.' || d == ')') then
                some (.number (Decimal.natOfDigits 10 digits) d, digits.length + 1)
              else none
          | [] => none
    | [] => none
  found.bind fun (m, length) =>
    if ((cs.drop length).head?.map Inlines.isSpace).getD true then some (m, length) else none

def blockNames : List String :=
  ["address", "article", "aside", "base", "basefont", "blockquote", "body", "caption", "center",
    "col", "colgroup", "dd", "details", "dialog", "dir", "div", "dl", "dt", "fieldset",
    "figcaption", "figure", "footer", "form", "frame", "frameset", "h1", "h2", "h3", "h4", "h5",
    "h6", "head", "header", "hr", "html", "iframe", "legend", "li", "link", "main", "menu",
    "menuitem", "nav", "noframes", "ol", "optgroup", "option", "p", "param", "search", "section",
    "summary", "table", "tbody", "td", "tfoot", "th", "thead", "title", "tr", "track", "ul"]

def rawNames : List String := ["pre", "script", "style", "textarea"]

inductive MarkupEnd where
  | holding (texts : List String)
  | blank

/-- How the block of markup that a line begins ends. A tag of another name takes a whole line, and
does not break into a paragraph. -/
def markup? (inParagraph : Bool) (cs : List Char) : Option MarkupEnd :=
  match cs with
  | '<' :: rest =>
      let name := (match rest with
        | '/' :: rest => rest
        | rest => rest).takeWhile Inlines.isTagNameChar
      let lower := Text.asciiLower (String.ofList name)
      let next := (rest.dropWhile (· == '/')).drop name.length
      let ended := (next.head?.map fun c => Inlines.isSpace c || c == '>').getD true
      let closesAlone := next.take 2 == ['/', '>']
      if rest.take 3 == "!--".toList then some (.holding ["-->"])
      else if rest.head? == some '?' then some (.holding ["?>"])
      else if rest.take 8 == "![CDATA[".toList then some (.holding ["]]>"])
      else if rest.head? == some '!' then
        if (rest[1]?.map Char.isAlpha).getD false then some (.holding [">"]) else none
      else if rawNames.contains lower && rest.head? != some '/' && ended then
        some (.holding (rawNames.map fun n => "</" ++ n ++ ">"))
      else if blockNames.contains lower && (ended || closesAlone) then some .blank
      else if inParagraph then none
      else
        match Inlines.afterMarkup? rest with
        | some after => if isBlankLine after && !rawNames.contains lower then some .blank else none
        | none => none
  | _ => none

def interrupts (l : Line) : Bool :=
  if 4 ≤ l.indent then false
  else
    let body := l.body
    isRule body || (heading? body).isSome || (fence? body).isSome || body.head? == some '>' ||
      (markup? true body).isSome ||
      (match marker? body with
        | some (.bullet _, length) => !isBlankLine (body.drop length)
        | some (.number start _, length) => start = 1 && !isBlankLine (body.drop length)
        | none => false)

/-! Definitions of link targets -/

def definition? (cs : List Char) : Option (Definition × List Char) :=
  match cs with
  | '[' :: rest => do
      let (label, rest) ← Inlines.label? rest
      let ':' :: given := rest | none
      if (Inlines.normalLabel label).isEmpty then none
      let (target, rest) ← Inlines.target? (Inlines.skipSpace given)
      if target.isEmpty && (Inlines.skipSpace given).head? != some '<' then none
      let make (title : List Char) : Definition := ⟨Inlines.normalLabel label, target, title⟩
      let untitled : Option (Definition × List Char) :=
        match rest.dropWhile Inlines.isSpace with
        | [] => some (make [], [])
        | '\n' :: after => some (make [], after)
        | _ => none
      let spaced := Inlines.skipSpace rest
      if spaced.length = rest.length then untitled
      else
        match Inlines.title? spaced with
        | some (title, after) =>
            match after.dropWhile Inlines.isSpace with
            | [] => some (make title, [])
            | '\n' :: after => some (make title, after)
            | _ => untitled
        | none => untitled
  | _ => none

def definitions : Nat → List Char → List Definition × List Char
  | 0, cs => ([], cs)
  | steps + 1, cs =>
      match definition? (cs.dropWhile Inlines.isSpaceOrEnd) with
      | some (d, rest) =>
          let (more, rest) := definitions steps rest
          (d :: more, rest)
      | none => ([], cs)

/-! Blocks of several lines -/

def paragraphLines : List Line → List Line × List Line
  | [] => ([], [])
  | l :: rest =>
      if l.isBlank then ([], l :: rest)
      else if !l.isLazy && (interrupts l || (underline? l).isSome) then ([], l :: rest)
      else
        let (more, after) := paragraphLines rest
        (l :: more, after)

def endsOpen : Nat → List Block → Bool
  | 0, _ => false
  | depth + 1, blocks =>
      match blocks.getLast? with
      | some (.paragraph _) => true
      | some (.quote inner) => endsOpen depth inner
      | some (.list _ _ items) => endsOpen depth (items.getLast?.getD [])
      | _ => false

def isOpen (read : List Line → List Block) (lines : List Line) : Bool :=
  match lines.getLast? with
  | some l => !l.isBlank && endsOpen (l.text.length + 1) (read lines)
  | none => false

def quoted? (l : Line) : Option Line :=
  if l.isLazy || 4 ≤ l.indent then none
  else
    let l := l.dropIndent l.indent
    if l.text.head? == some '>' then some ((l.drop 1).dropIndent 1) else none

def quoteLines (read : List Line → List Block) (inner : List Line) :
    List Line → List Line × List Line
  | [] => (inner, [])
  | l :: rest =>
      match quoted? l with
      | some l => quoteLines read (inner ++ [l]) rest
      | none =>
          if !l.isBlank && (l.isLazy || !interrupts l) && isOpen read inner then
            quoteLines read (inner ++ [{ l with isLazy := true }]) rest
          else (inner, l :: rest)

structure Item where
  marker : Marker
  width : Nat
  lines : List Line

def item? (l : Line) : Option Item :=
  if 4 ≤ l.indent || isRule l.body then none
  else
    (marker? l.body).map fun (marker, length) =>
      let rest := (l.dropIndent l.indent).drop length
      let padding := if rest.isBlank || 5 ≤ rest.indent then 1 else rest.indent
      ⟨marker, l.indent + length + padding, [rest.dropIndent padding]⟩

def itemLines (read : List Line → List Block) (done : List Item) (item : Item) :
    List Line → List Item × List Line
  | [] => (done ++ [item], [])
  | l :: rest =>
      let go (l : Line) := itemLines read done { item with lines := item.lines ++ [l] } rest
      if l.isBlank then go { (l.dropIndent item.width) with isLazy := false }
      else if l.isLazy then
        if isOpen read item.lines then go l else (done ++ [item], l :: rest)
      else if item.width ≤ l.indent &&
          !(2 ≤ item.lines.length && item.lines.all Line.isBlank) then
        go (l.dropIndent item.width)
      else
        match item? l with
        | some next =>
            if next.marker.isLike item.marker then itemLines read (done ++ [item]) next rest
            else (done ++ [item], l :: rest)
        | none =>
            if !interrupts l && isOpen read item.lines then go { l with isLazy := true }
            else (done ++ [item], l :: rest)

def dropBlankEnd (lines : List Line) : List Line := Text.dropEnd Line.isBlank lines

def blankEnd (lines : List Line) : List Line :=
  (lines.reverse.takeWhile Line.isBlank).reverse

def joinLines (lines : List (List Char)) : List Char := List.intercalate ['\n'] lines

def codeText (lines : List Line) : List Char := lines.flatMap fun l => l.text ++ ['\n']

def indentedCode (lines : List Line) : Block × List Line :=
  let isCode (l : Line) : Bool := !l.isLazy && (4 ≤ l.indent || l.isBlank)
  let taken := lines.takeWhile isCode
  (.code true [] (codeText ((dropBlankEnd taken).map (·.dropIndent 4))),
    blankEnd taken ++ lines.dropWhile isCode)

def fencedCode (indent : Nat) (mark : Char) (count : Nat) (info : List Char) (lines : List Line) :
    Block × List Line :=
  let goesOn (l : Line) : Bool := !l.isLazy && !closesFence mark count l
  let text := codeText ((lines.takeWhile goesOn).map (·.dropIndent indent))
  let language := Inlines.unescape (info.takeWhile fun c => !Inlines.isSpace c)
  match lines.dropWhile goesOn with
  | [] => (.code false language text, [])
  | l :: after => (.code (!l.isLazy) language text, if l.isLazy then l :: after else after)

def holds (texts : List String) (cs : List Char) : Bool :=
  let lower := Text.asciiLower (String.ofList cs)
  texts.any fun t => (Text.splitOnce t.toList lower.toList).isSome

def markupBlock (ending : MarkupEnd) (lines : List Line) : Block × List Line :=
  match ending with
  | .blank =>
      let goesOn (l : Line) : Bool := !l.isLazy && !l.isBlank
      (.markup (joinLines ((lines.takeWhile goesOn).map Line.text)), lines.dropWhile goesOn)
  | .holding texts =>
      let goesOn (l : Line) : Bool := !l.isLazy && !holds texts l.text
      let last := (lines.dropWhile goesOn).take 1 |>.filter fun l => !l.isLazy
      let taken := lines.takeWhile goesOn ++ last
      (.markup (joinLines (taken.map Line.text)), lines.drop taken.length)

/-- The text of a paragraph. White space in front of its further lines is left to the inline
text. -/
def paragraphText (l : Line) (more : List Line) : List Char :=
  Text.dropEnd Inlines.isSpaceOrEnd (joinLines (l.body :: more.map Line.text))

/-- A paragraph, or the heading that a line below makes of it. Definitions are taken out of the text
first; where nothing else is left the line below is a paragraph of its own. The bound is on the
steps. -/
def paragraph : Nat → Line → List Line → List Block × List Line
  | 0, _, rest => ([], rest)
  | steps + 1, l, rest =>
      let (more, after) := paragraphLines rest
      let text := paragraphText l more
      let (found, left) := definitions text.length text
      let defined := found.map Block.definition
      let isDone := left.all Inlines.isSpaceOrEnd
      match after with
      | under :: below =>
          match underline? under with
          | some level =>
              if isDone then
                let (blocks, after) := paragraph steps under below
                (defined ++ blocks, after)
              else (defined ++ [.heading level left], below)
          | none => (defined ++ if isDone then [] else [.paragraph left], after)
      | [] => (defined ++ if isDone then [] else [.paragraph left], [])

def list (read : List Line → List (Bool × Block)) (first : Item) (rest : List Line) :
    Block × List Line :=
  let (items, after) := itemLines (fun lines => (read lines).map Prod.snd) [] first rest
  let blocks := items.map fun i => read i.lines
  let apart := items.dropLast.any fun i =>
    (i.lines.getLast?.map Line.isBlank).getD false && 1 < i.lines.length
  let spread := blocks.any fun bs => bs.tail.any Prod.fst
  let start := match first.marker with
    | .bullet _ => none
    | .number n _ => some n
  let loose := apart || spread
  (.list start loose (blocks.map fun bs => bs.map Prod.snd),
    (items.getLast?.map fun i => blankEnd i.lines.tail).getD [] ++ after)

def block (read : List Line → List (Bool × Block)) (l : Line) (rest : List Line) :
    List Block × List Line :=
  let one (found : Block × List Line) : List Block × List Line := ([found.1], found.2)
  if l.isLazy then paragraph (rest.length + 1) l rest
  else if 4 ≤ l.indent then one (indentedCode (l :: rest))
  else
    let body := l.body
    match fence? body, heading? body, quoted? l, item? l, markup? false body with
    | some (mark, count, info), _, _, _, _ => one (fencedCode l.indent mark count info rest)
    | none, some (level, text), _, _, _ => ([.heading level text], rest)
    | none, none, some inner, _, _ =>
        let plain (lines : List Line) : List Block := (read lines).map Prod.snd
        let (inner, after) := quoteLines plain [inner] rest
        ([.quote (plain inner)], after)
    | none, none, none, some item, _ => one (list read item rest)
    | none, none, none, none, some ending => one (markupBlock ending (l :: rest))
    | none, none, none, none, none =>
        if isRule body then ([.rule], rest) else paragraph (rest.length + 1) l rest

/-- Reads lines as blocks, each with whether a blank line precedes it; the bound is on the steps of
reading. -/
def readWithin : Nat → Bool → List Line → List (Bool × Block)
  | 0, _, _ => []
  | _, _, [] => []
  | steps + 1, apart, l :: rest =>
      if l.isBlank then readWithin steps true rest
      else
        let (blocks, after) := block (fun lines => readWithin steps false lines) l rest
        blocks.map (apart, ·) ++ readWithin steps false after

def read (cs : List Char) : List Block :=
  let pieces := (Text.dropFinalNewline cs).splitOn '\n'
  let lines := pieces.map fun text => (⟨text, 0, false⟩ : Line)
  (readWithin (cs.length + lines.length + 1) false lines).map Prod.snd

end Blocks

end Haml.Markdown
