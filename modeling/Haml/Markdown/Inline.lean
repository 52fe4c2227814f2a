import Haml.Markdown.Entity
import Haml.Text.Case
import Haml.Text.Punctuation
import Haml.Text.Quoted
/-! Inline markdown: emphasis, code, links and images in a text. -/

namespace Haml.Markdown

inductive Inline where
  | text (text : List Char)
  | code (text : List Char)
  /-- Markup of the text itself, which is shown and not trusted. -/
  | markup (text : List Char)
  | lineBreak
  | emphasis (inner : List Inline)
  | strong (inner : List Inline)
  | link (target title : List Char) (inner : List Inline)
  | image (target title : List Char) (inner : List Inline)

structure Definition where
  label : List Char
  target : List Char
  title : List Char

namespace Inlines

def isEscapable (c : Char) : Bool := c.toNat < 128 && Text.isPunctuation c

def isSpace (c : Char) : Bool := c == ' ' || c == '\t'

def isSpaceOrEnd (c : Char) : Bool := isSpace c || c == '\n'

def dropIndents : List Char → List Char
  | [] => []
  | '\n' :: cs => '\n' :: dropIndents (cs.dropWhile isSpace)
  | c :: cs => c :: dropIndents cs
  termination_by cs => cs.length
  decreasing_by
    · exact Nat.lt_succ_of_le (List.dropWhile_sublist _).length_le
    · exact Nat.lt_succ_self _

/-- Whether a code point may not be referred to: the controls that are no white space, and those
that stand for no character. -/
def isRefused (n : Nat) : Bool :=
  n ≤ 8 || n = 11 || (14 ≤ n && n ≤ 31) || (127 ≤ n && n ≤ 159) || (0xfdd0 ≤ n && n ≤ 0xfdef) ||
    n % 0x10000 = 0xffff || n % 0x10000 = 0xfffe || !n.isValidChar

def ofCode (n : Nat) : Char := if isRefused n then '\ufffd' else Char.ofNat n

def referenced? : List Char → Option (List Char)
  | '#' :: x :: digits =>
      if x == 'x' || x == 'X' then
        if digits.isEmpty || 6 < digits.length || !digits.all Text.Quoted.isHexDigit then none
        else some [ofCode (Decimal.natOfDigits 16 digits)]
      else if 6 < digits.length || !(x :: digits).all Char.isDigit then none
      else some [ofCode (Decimal.natOfDigits 10 (x :: digits))]
  | name => Entity.text? name

def reference? (cs : List Char) : Option (List Char × Nat) :=
  let body := cs.takeWhile (· != ';')
  if body.length = cs.length then none else (referenced? body).map (·, body.length + 1)

/-- A text with its escapes and references read; `skip` characters are read already. -/
def unescapeFrom : Nat → List Char → List Char
  | _, [] => []
  | skip + 1, _ :: cs => unescapeFrom skip cs
  | 0, '\\' :: c :: cs =>
      if isEscapable c then c :: unescapeFrom 1 (c :: cs) else '\\' :: unescapeFrom 0 (c :: cs)
  | 0, '&' :: cs =>
      match reference? cs with
      | some (text, length) => text ++ unescapeFrom length cs
      | none => '&' :: unescapeFrom 0 cs
  | 0, c :: cs => c :: unescapeFrom 0 cs

def unescape (cs : List Char) : List Char := unescapeFrom 0 cs

/-- A piece of inline text that is read: content, a run of marks that may open or close emphasis, or
a bracket that may open a link, with the text after it. -/
inductive Piece where
  | content (inline : Inline)
  | run (mark : Char) (count : Nat) (opens closes : Bool)
  | bracket (image active : Bool) (after : List Char)

def matchRuns (openCount : Nat) (openCloses : Bool) (closeCount : Nat) (closeOpens : Bool) : Bool :=
  !((openCloses || closeOpens) && closeCount % 3 != 0 && (openCount + closeCount) % 3 == 0)

structure Opened where
  mark : Char
  count : Nat
  closes : Bool
  inner : List Inline

def Opened.plain (r : Opened) : List Inline := .text (List.replicate r.count r.mark) :: r.inner

structure Open where
  base : List Inline
  runs : List Opened

namespace Open

def push (o : Open) (inlines : List Inline) : Open :=
  match o.runs with
  | [] => { o with base := o.base ++ inlines }
  | r :: rest => { o with runs := { r with inner := r.inner ++ inlines } :: rest }

def find? (mark : Char) (count : Nat) (opens : Bool) :
    List Opened → Option (List Inline × Opened × List Opened)
  | [] => none
  | r :: rest =>
      if r.mark = mark && matchRuns r.count r.closes count opens then some (r.inner, r, rest)
      else
        (find? mark count opens rest).map fun (inner, found, before) =>
          (inner ++ r.plain, found, before)

def close (mark : Char) (opens : Bool) : Nat → Nat → Open → Open
  | 0, _, o => o
  | _, 0, o => o
  | steps + 1, count, o =>
      match find? mark count opens o.runs with
      | some (inner, r, before) =>
          let size := if 1 < r.count && 1 < count then 2 else 1
          let wrapped : Inline := if size = 2 then .strong inner else .emphasis inner
          let left : Open :=
            if r.count = size then push ⟨o.base, before⟩ [wrapped]
            else ⟨o.base, { r with count := r.count - size, inner := [wrapped] } :: before⟩
          close mark opens steps (count - size) left
      | none =>
          if opens then { o with runs := ⟨mark, count, true, []⟩ :: o.runs }
          else o.push [.text (List.replicate count mark)]

def add (o : Open) : Piece → Open
  | .content i => o.push [i]
  | .bracket image _ _ => o.push [.text (if image then ['!', '['] else ['['])]
  | .run mark count opens closes =>
      if closes then close mark opens count count o
      else if opens then { o with runs := ⟨mark, count, false, []⟩ :: o.runs }
      else o.push [.text (List.replicate count mark)]

def finish (o : Open) : List Inline := o.base ++ o.runs.reverse.flatMap Opened.plain

end Open

def resolve (pieces : List Piece) : List Inline := (pieces.foldl Open.add ⟨[], []⟩).finish

/-! Links -/

def pointed? : List Char → Option (List Char × List Char)
  | [] => none
  | '>' :: rest => some ([], rest)
  | '\\' :: c :: rest => (pointed? rest).map fun (t, after) => ('\\' :: c :: t, after)
  | c :: rest =>
      if c == '\n' || c == '<' then none
      else (pointed? rest).map fun (t, after) => (c :: t, after)

def bare : Nat → List Char → List Char × List Char
  | _, [] => ([], [])
  | depth, '\\' :: c :: rest =>
      if isEscapable c then
        let (t, after) := bare depth rest
        ('\\' :: c :: t, after)
      else
        let (t, after) := bare depth (c :: rest)
        ('\\' :: t, after)
  | depth, c :: rest =>
      if isSpaceOrEnd c || c.toNat < 32 || (c == ')' && depth = 0) then ([], c :: rest)
      else
        let depth := if c == '(' then depth + 1 else if c == ')' then depth - 1 else depth
        let (t, after) := bare depth rest
        (c :: t, after)

def target? (cs : List Char) : Option (List Char × List Char) :=
  match cs with
  | '<' :: rest => (pointed? rest).map fun (t, after) => (unescape t, after)
  | cs =>
      let (t, after) := bare 0 cs
      some (unescape t, after)

def titleEnd? (closing : Char) : List Char → Option (List Char × List Char)
  | [] => none
  | '\\' :: c :: rest => (titleEnd? closing rest).map fun (t, after) => ('\\' :: c :: t, after)
  | c :: rest =>
      if c = closing then some ([], rest)
      else (titleEnd? closing rest).map fun (t, after) => (c :: t, after)

def title? : List Char → Option (List Char × List Char)
  | c :: rest =>
      if c == '"' || c == '\'' || c == '(' then
        (titleEnd? (if c == '(' then ')' else c) rest).map fun (t, after) =>
          (unescape (dropIndents t), after)
      else none
  | [] => none

def skipSpace (cs : List Char) : List Char := cs.dropWhile isSpaceOrEnd

def resource? (cs : List Char) : Option (List Char × List Char × List Char) := do
  let (target, rest) ← target? (skipSpace cs)
  let spaced := skipSpace rest
  match spaced with
  | ')' :: after => return (target, [], after)
  | spaced => do
      if spaced.length = rest.length then none
      let (title, rest) ← title? spaced
      match skipSpace rest with
      | ')' :: after => return (target, title, after)
      | _ => none

def normalLabel (cs : List Char) : List Char :=
  let words := (cs.splitOnP isSpaceOrEnd).filter (· ≠ [])
  Text.upper (Text.lower (List.intercalate [' '] words))

def label? : List Char → Option (List Char × List Char)
  | [] => none
  | ']' :: rest => some ([], rest)
  | '[' :: _ => none
  | '\\' :: c :: rest => (label? rest).map fun (l, after) => ('\\' :: c :: l, after)
  | c :: rest => (label? rest).map fun (l, after) => (c :: l, after)

def lookup? (definitions : List Definition) (label : List Char) : Option Definition :=
  let label := normalLabel label
  if label.isEmpty then none else definitions.find? fun d => d.label = label

def destination? (definitions : List Definition) (label cs : List Char) :
    Option (List Char × List Char × List Char) :=
  let referred (d : Definition) (after : List Char) := (d.target, d.title, after)
  let shortcut := (lookup? definitions label).map (referred · cs)
  match cs with
  | '(' :: rest => (resource? rest).or shortcut
  | '[' :: rest =>
      match label? rest with
      | some ([], after) => (lookup? definitions label).map (referred · after)
      | some (other, after) => (lookup? definitions other).map (referred · after)
      | none => shortcut
  | _ => shortcut

/-- Parts the latest bracket from the pieces after it; pieces are given the latest first. -/
def lastBracket? : List Piece → Option (List Piece × Bool × Bool × List Char × List Piece)
  | [] => none
  | .bracket image active after :: before => some ([], image, active, after, before)
  | p :: rest =>
      (lastBracket? rest).map fun (inner, image, active, after, before) =>
        (p :: inner, image, active, after, before)

def deactivate : Piece → Piece
  | .bracket false _ after => .bracket false false after
  | p => p

/-- Closes a bracket, if it links to something. The pieces and the text left are given. -/
def closeBracket (definitions : List Definition) (pieces : List Piece) (cs : List Char) :
    List Piece × List Char :=
  let plain := Piece.content (.text [']'])
  match lastBracket? pieces with
  | none => (plain :: pieces, cs)
  | some (inner, image, active, after, before) =>
      let opening := Piece.content (.text (if image then ['!', '['] else ['[']))
      let unlinked := (plain :: inner ++ opening :: before, cs)
      if !active then unlinked
      else
        match destination? definitions (after.take (after.length - cs.length - 1)) cs with
        | none => unlinked
        | some (target, title, rest) =>
            let content := resolve inner.reverse
            if image then (.content (.image target title content) :: before, rest)
            else (.content (.link target title content) :: before.map deactivate, rest)

/-! Code, markup and links in pointed brackets -/

def codeEnd? (count : Nat) : Nat → List Char → Option (List Char × List Char)
  | seen, [] => if seen = count then some ([], []) else none
  | seen, c :: rest =>
      if c == '\x60' then codeEnd? count (seen + 1) rest |>.map fun (t, after) => (c :: t, after)
      else if seen = count then some ([], c :: rest)
      else (codeEnd? count 0 rest).map fun (t, after) => (c :: t, after)

def trimCode (cs : List Char) : List Char :=
  let cs := cs.map fun c => if c == '\n' then ' ' else c
  if cs.head? == some ' ' && cs.getLast? == some ' ' && cs.any (· != ' ') then
    cs.tail.dropLast
  else cs

def code? (count : Nat) (cs : List Char) : Option (List Char × List Char) :=
  (codeEnd? count 0 cs).map fun (t, after) => (trimCode (t.take (t.length - count)), after)

def isSchemeChar (c : Char) : Bool := c.isAlphanum || c == '+' || c == '.' || c == '-'

def isScheme (cs : List Char) : Bool :=
  2 ≤ cs.length && cs.length ≤ 32 && (cs.head?.map Char.isAlpha).getD false && cs.all isSchemeChar

def isUriChar (c : Char) : Bool := 32 < c.toNat && c != '<' && c != '>'

def isMailChar (c : Char) : Bool := c.isAlphanum || ".!#$%&'*+/=?^_`{|}~-".toList.contains c

def isHostPart (cs : List Char) : Bool :=
  !cs.isEmpty && cs.length ≤ 63 && cs.all (fun c => c.isAlphanum || c == '-') &&
    cs.head? != some '-' && cs.getLast? != some '-'

def isMail (cs : List Char) : Bool :=
  let user := cs.takeWhile (· != '@')
  let host := (cs.dropWhile (· != '@')).tail
  !user.isEmpty && user.length < cs.length && user.all isMailChar &&
    (host.splitOn '.').all isHostPart

def autolink? (inner : List Char) : Option Inline :=
  let scheme := inner.takeWhile (· != ':')
  if isScheme scheme && scheme.length < inner.length && inner.all isUriChar then
    some (.link inner [] [.text inner])
  else if isMail inner then some (.link ("mailto:".toList ++ inner) [] [.text inner])
  else none

def isTagNameChar (c : Char) : Bool := c.isAlphanum || c == '-'

def isAttributeStart (c : Char) : Bool := c.isAlpha || c == '_' || c == ':'

def isAttributeChar (c : Char) : Bool := isAttributeStart c || c.isDigit || c == '.' || c == '-'

def isUnquoted (c : Char) : Bool :=
  !isSpaceOrEnd c && !(['"', '\'', '=', '<', '>', '\x60'].contains c)

def after? (ending : String) (cs : List Char) : Option (List Char) :=
  (Text.splitOnce ending.toList cs).map Prod.snd

def afterValue? (cs : List Char) : Option (List Char) :=
  match skipSpace cs with
  | '"' :: rest => after? "\"" rest
  | '\'' :: rest => after? "'" rest
  | cs => if (cs.takeWhile isUnquoted).isEmpty then none else some (cs.dropWhile isUnquoted)

def afterAttributes? : Nat → List Char → Option (List Char)
  | 0, _ => none
  | steps + 1, cs =>
      match skipSpace cs with
      | '>' :: rest => some rest
      | '/' :: '>' :: rest => some rest
      | c :: rest =>
          if isAttributeStart c && (skipSpace cs).length < cs.length then
            let name := rest.dropWhile isAttributeChar
            match skipSpace name with
            | '=' :: value => (afterValue? value).bind (afterAttributes? steps)
            | _ => afterAttributes? steps name
          else none
      | [] => none

def afterMarkup? (cs : List Char) : Option (List Char) :=
  match cs with
  | '!' :: '-' :: '-' :: '>' :: rest => some rest
  | '!' :: '-' :: '-' :: '-' :: '>' :: rest => some rest
  | '!' :: '-' :: '-' :: rest => after? "-->" rest
  | '!' :: '[' :: 'C' :: 'D' :: 'A' :: 'T' :: 'A' :: '[' :: rest => after? "]]>" rest
  | '!' :: c :: rest => if c.isAlpha then after? ">" rest else none
  | '?' :: rest => after? "?>" rest
  | '/' :: c :: rest =>
      if c.isAlpha then
        match skipSpace (rest.dropWhile isTagNameChar) with
        | '>' :: rest => some rest
        | _ => none
      else none
  | c :: rest =>
      if c.isAlpha then afterAttributes? (rest.length + 1) (rest.dropWhile isTagNameChar) else none
  | [] => none

def pointed (cs : List Char) : Inline × List Char :=
  let inner := cs.takeWhile (· != '>')
  let link := if inner.length < cs.length then autolink? inner else none
  match link with
  | some link => (link, cs.drop (inner.length + 1))
  | none =>
      match afterMarkup? cs with
      | some rest => (.markup ('<' :: dropIndents (cs.take (cs.length - rest.length))), rest)
      | none => (.text ['<'], cs)

/-! Reading -/

def isEmphasisMark (c : Char) : Bool := c == '*' || c == '_'

def runBetween (before after mark : Char) (count : Nat) : Piece :=
  let space (c : Char) : Bool := Text.isBlank c
  let mute := Text.isPunctuation
  let left := !space after && (!mute after || space before || mute before)
  let right := !space before && (!mute before || space after || mute after)
  if mark == '_' then
    .run mark count (left && (!right || mute before)) (right && (!left || mute after))
  else .run mark count left right

/-- Reads pieces, given a bound on the steps left, the character before the text and the pieces read
so far, the latest first. -/
def scan (definitions : List Definition) : Nat → Char → List Piece → List Char → List Piece
  | 0, _, pieces, _ => pieces
  | _, _, pieces, [] => pieces
  | steps + 1, before, pieces, c :: cs =>
      let put (i : Inline) (rest : List Char) := scan definitions steps c (.content i :: pieces) rest
      match c, cs with
      | '\n', cs => put (.text ['\n']) (cs.dropWhile isSpace)
      | '\\', '\n' :: rest => put .lineBreak (rest.dropWhile isSpace)
      | '\\', d :: rest =>
          if isEscapable d then scan definitions steps d (.content (.text [d]) :: pieces) rest
          else put (.text ['\\']) (d :: rest)
      | '\x60', cs =>
          let count := (cs.takeWhile (· == '\x60')).length + 1
          let rest := cs.drop (count - 1)
          match code? count rest with
          | some (text, rest) => put (.code text) rest
          | none => put (.text (List.replicate count '\x60')) rest
      | '<', cs =>
          let (i, rest) := pointed cs
          scan definitions steps (if rest.length < cs.length then '>' else '<')
            (.content i :: pieces) rest
      | '&', cs =>
          match reference? cs with
          | some (text, length) =>
              scan definitions steps ';' (.content (.text text) :: pieces) (cs.drop length)
          | none => put (.text ['&']) cs
      | '!', '[' :: rest => scan definitions steps '[' (.bracket true true rest :: pieces) rest
      | '[', cs => scan definitions steps c (.bracket false true cs :: pieces) cs
      | ']', cs =>
          let (pieces, rest) := closeBracket definitions pieces cs
          scan definitions steps (if rest.length < cs.length then ')' else c) pieces rest
      | c, cs =>
          if isEmphasisMark c then
            let count := (cs.takeWhile (· == c)).length + 1
            let rest := cs.drop (count - 1)
            scan definitions steps c
              (runBetween before (rest.head?.getD ' ') c count :: pieces) rest
          else if isSpace c then
            let spaces := (cs.takeWhile isSpace).length + 1
            let rest := cs.drop (spaces - 1)
            match rest with
            | '\n' :: after =>
                let breaks := 2 ≤ spaces && ((c :: cs).take spaces).all (· == ' ')
                scan definitions steps '\n'
                  (.content (if breaks then .lineBreak else .text ['\n']) :: pieces)
                  (after.dropWhile isSpace)
            | rest => put (.text ((c :: cs).take spaces)) rest
          else put (.text [c]) cs

def read (definitions : List Definition) (cs : List Char) : List Inline :=
  resolve (scan definitions (cs.length + 1) '\n' [] cs).reverse

end Inlines

end Haml.Markdown
