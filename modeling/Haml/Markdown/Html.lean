import Haml.Markdown.Block
import Haml.Text.Markup
/-! Markdown as markup for the web. Markup in the text itself is shown as it is written. -/

namespace Haml.Markdown.Html

def encodeChar (c : Char) : List Char :=
  match c with
  | '\x00' => ['\ufffd']
  | '&' => "&amp;".toList
  | '<' => "&lt;".toList
  | '>' => "&gt;".toList
  | '"' => "&quot;".toList
  | c => [c]

def encode (cs : List Char) : List Char := cs.flatMap encodeChar

def hexDigit (n : Nat) : Char := if n < 10 then Char.ofNat (48 + n) else Char.ofNat (55 + n)

def percent (b : UInt8) : List Char := ['%', hexDigit (b.toNat / 16), hexDigit (b.toNat % 16)]

def isUriSafe (c : Char) : Bool := c.isAlphanum || "!#$&'()*+,-./:;=?@_~".toList.contains c

def normalTarget : List Char → List Char
  | [] => []
  | '%' :: a :: b :: cs =>
      if a.isAlphanum && b.isAlphanum then '%' :: a :: b :: normalTarget cs
      else percent 37 ++ normalTarget (a :: b :: cs)
  | c :: cs =>
      (if isUriSafe c then [c] else (String.singleton c).toUTF8.toList.flatMap percent) ++
        normalTarget cs

def linkSchemes : List String := ["http", "https", "irc", "ircs", "mailto", "xmpp"]

def imageSchemes : List String := ["http", "https"]

def safeTarget (schemes : List String) (cs : List Char) : List Char :=
  let target := encode (normalTarget cs)
  let scheme := target.takeWhile fun c => !(c == ':' || c == '/' || c == '?' || c == '#')
  if (target.drop scheme.length).head? == some ':' &&
      !schemes.contains (Text.asciiLower (String.ofList scheme)) then []
  else target

def titled (title : List Char) : List Char :=
  if title.isEmpty then [] else " title=\"".toList ++ encode title ++ ['"']

mutual

def plain : Inline → List Char
  | .text t | .code t | .markup t => t
  | .lineBreak => ['\n']
  | .emphasis inner | .strong inner | .link _ _ inner | .image _ _ inner => plainAll inner

def plainAll : List Inline → List Char
  | [] => []
  | i :: rest => plain i ++ plainAll rest

end

mutual

def inline : Inline → List Char
  | .text t | .markup t => encode t
  | .code t => "<code>".toList ++ encode t ++ "</code>".toList
  | .lineBreak => "<br />\n".toList
  | .emphasis inner => "<em>".toList ++ inlines inner ++ "</em>".toList
  | .strong inner => "<strong>".toList ++ inlines inner ++ "</strong>".toList
  | .link target title inner =>
      "<a href=\"".toList ++ safeTarget linkSchemes target ++ ['"'] ++ titled title ++ ['>'] ++
        inlines inner ++ "</a>".toList
  | .image target title inner =>
      "<img src=\"".toList ++ safeTarget imageSchemes target ++ "\" alt=\"".toList ++
        encode (plainAll inner) ++ ['"'] ++ titled title ++ " />".toList

def inlines : List Inline → List Char
  | [] => []
  | i :: rest => inline i ++ inlines rest

end

def endLine (out : List Char) : List Char :=
  match out.getLast? with
  | none | some '\n' => out
  | some _ => out ++ ['\n']

def onLines (out text : List Char) : List Char := endLine (endLine out ++ text)

def codeTag (language : List Char) : List Char :=
  if language.isEmpty then "<pre><code>".toList
  else "<pre><code class=\"language-".toList ++ encode language ++ "\">".toList

def listTag (start : Option Nat) : List Char :=
  match start with
  | none => "<ul>".toList
  | some 1 => "<ol>".toList
  | some n => ("<ol start=\"" ++ toString n ++ "\">").toList

def heading (level : Nat) (inner : List Char) : List Char :=
  let name := 'h' :: (toString level).toList
  '<' :: name ++ ['>'] ++ inner ++ "</".toList ++ name ++ ['>']

mutual

/-- Adds a block to the output. The paragraphs of a list that is not loose have no tags. -/
def block (defs : List Definition) (tight : Bool) (out : List Char) : Block → List Char
  | .paragraph text =>
      let inner := inlines (Inlines.read defs text)
      if tight then out ++ inner else onLines out ("<p>".toList ++ inner ++ "</p>".toList)
  | .heading level text => onLines out (heading level (inlines (Inlines.read defs text)))
  | .rule => onLines out "<hr />".toList
  | .code _ language text =>
      onLines out (codeTag language ++ encode text ++ "</code></pre>".toList)
  | .markup text => onLines out (encode text)
  | .quote inner =>
      onLines (blocks defs false (onLines out "<blockquote>".toList) inner) "</blockquote>".toList
  | .list start loose all =>
      onLines (items defs (!loose) (onLines out (listTag start)) all)
        (if start.isSome then "</ol>".toList else "</ul>".toList)
  | .definition _ => out

def blocks (defs : List Definition) (tight : Bool) (out : List Char) : List Block → List Char
  | [] => out
  | b :: rest => blocks defs tight (block defs tight out b) rest

def items (defs : List Definition) (tight : Bool) (out : List Char) : List (List Block) → List Char
  | [] => out
  | inner :: rest =>
      items defs tight
        (endLine (blocks defs tight (out ++ "<li>".toList) inner ++ "</li>".toList)) rest

end

mutual

def defined : Block → List Definition
  | .definition d => [d]
  | .quote inner => definedAll inner
  | .list _ _ all => definedItems all
  | _ => []

def definedAll : List Block → List Definition
  | [] => []
  | b :: rest => defined b ++ definedAll rest

def definedItems : List (List Block) → List Definition
  | [] => []
  | inner :: rest => definedAll inner ++ definedItems rest

end

def endsLine (cs : List Char) : Bool :=
  (cs.reverse.takeWhile fun c => c == '\n' || Inlines.isSpace c).contains '\n'

def endsOpen (all : List Block) : Bool :=
  match all.getLast? with
  | some (.code isClosed _ _) => !isClosed
  | _ => false

def writeLines (cs : List Char) : List Char :=
  let all := Blocks.read cs
  let out := blocks (definedAll all) false [] all
  let bare := if out.getLast? == some '\n' then out.dropLast else out
  if (endsLine cs || endsOpen all) && !bare.isEmpty then bare ++ ['\n'] else bare

/-! Line ends -/

def lineEnd : List Char → List Char
  | '\r' :: '\n' :: _ => ['\r', '\n']
  | c :: cs => if c == '\r' || c == '\n' then [c] else lineEnd cs
  | [] => ['\n']

def lineFeeds : List Char → List Char
  | '\r' :: '\n' :: cs => '\n' :: lineFeeds cs
  | c :: cs => (if c == '\r' then '\n' else c) :: lineFeeds cs
  | [] => []

def write (cs : List Char) : List Char :=
  let out := writeLines (lineFeeds cs)
  if lineEnd cs = ['\n'] then out
  else out.flatMap fun c => if c == '\n' then lineEnd cs else [c]

end Haml.Markdown.Html
