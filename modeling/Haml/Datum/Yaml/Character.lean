import Haml.Datum.Json
/-! Characters in YAML: their classes, and line ends of one form. -/

namespace Haml.Yaml

def isBlank (c : Char) : Bool := c == ' ' || c == '\t'

def isBreak (c : Char) : Bool := c == '\n' || c == '\u2028' || c == '\u2029'

def isSpace (c : Char) : Bool := isBlank c || isBreak c

def startsSpace (cs : List Char) : Bool := (cs.head?.map isSpace).getD true

def isNameChar (c : Char) : Bool := c.isAlphanum || c == '_' || c == '-'

def isFlowMark (c : Char) : Bool := [',', '[', ']', '{', '}'].contains c

def isAllowed (c : Char) : Bool :=
  let n := c.toNat
  c == '\t' || isBreak c || (0x20 ≤ n && n ≤ 0x7e) || (0xa0 ≤ n && n ≤ 0xfffd) || 0x10000 ≤ n

def lineFeeds : List Char → List Char
  | '\r' :: '\n' :: cs => '\n' :: lineFeeds cs
  | c :: cs => (if c == '\r' || c == '\u0085' then '\n' else c) :: lineFeeds cs
  | [] => []

/-- The text of white space inside a scalar: blanks stand for themselves, one line end is a blank,
and of more the first is dropped. -/
def foldSpace (space : List Char) : List Char :=
  match space.filter isBreak with
  | [] => space
  | ['\n'] => [' ']
  | '\n' :: more => more
  | ends => ends

end Haml.Yaml
