/-! White space: the characters that carry the property, trimming, and cutting into words. -/

namespace Haml.Text

def isBlank (c : Char) : Bool :=
  let n := c.toNat
  (9 ≤ n && n ≤ 13) || n == 0x20 || n == 0x85 || n == 0xA0 || n == 0x1680 ||
    (0x2000 ≤ n && n ≤ 0x200A) || n == 0x2028 || n == 0x2029 || n == 0x202F ||
    n == 0x205F || n == 0x3000

def isIndent (c : Char) : Bool := c == ' ' || c == '\t'

def dropEnd {α : Type} (p : α → Bool) (xs : List α) : List α :=
  (xs.reverse.dropWhile p).reverse

def trimStart (cs : List Char) : List Char := cs.dropWhile isBlank

def trimEnd (cs : List Char) : List Char := dropEnd isBlank cs

def trim (cs : List Char) : List Char := trimEnd (trimStart cs)

def allBlank (cs : List Char) : Bool := cs.all isBlank

def words (cs : List Char) : List (List Char) :=
  (cs.splitOnP isBlank).filter (· ≠ [])

def splitOnce (sep : List Char) : List Char → Option (List Char × List Char)
  | [] => if sep.isEmpty then some ([], []) else none
  | c :: cs =>
      match sep.isPrefixOf? (c :: cs) with
      | some rest => some ([], rest)
      | none => (splitOnce sep cs).map fun (before, after) => (c :: before, after)

def dropSuffix? (cs text : List Char) : Option (List Char) :=
  (cs.reverse.isPrefixOf? text.reverse).map List.reverse

end Haml.Text
