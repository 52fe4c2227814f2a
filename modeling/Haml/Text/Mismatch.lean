import Haml.Text.Lines
/-! Mismatches: the first line in which two texts differ. -/

namespace Haml.Text

structure Mismatch where
  /-- The number of the line, counted from one. -/
  line : Nat
  left : Option (List Char)
  right : Option (List Char)
  deriving DecidableEq, Repr

namespace Mismatch

def swap (d : Mismatch) : Mismatch := ⟨d.line, d.right, d.left⟩

def ofLines (line : Nat) : List (List Char) → List (List Char) → Option Mismatch
  | [], [] => none
  | l :: ls, r :: rs => if l = r then ofLines (line + 1) ls rs else some ⟨line, some l, some r⟩
  | [], r :: _ => some ⟨line, none, some r⟩
  | l :: _, [] => some ⟨line, some l, none⟩

end Mismatch

/-- The first line in which two texts differ. A final line feed opens no line of its own. -/
def mismatch? (left right : List Char) : Option Mismatch :=
  Mismatch.ofLines 1 (lines left) (lines right)

end Haml.Text
