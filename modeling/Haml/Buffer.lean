import Haml.Text.Blank
/-! Output being written, line by line, with two spaces of indentation for each level of depth. -/

namespace Haml

structure Buffer where
  text : List Char
  /-- Whether the next line joins the output without indentation. -/
  glued : Bool
  deriving DecidableEq, Repr

namespace Buffer

def empty : Buffer := ⟨[], false⟩

/-- Writes one line. An empty one is not indented. -/
def line (depth : Nat) (text : List Char) (b : Buffer) : Buffer :=
  let indent := if b.glued || text.isEmpty then [] else List.replicate (2 * depth) ' '
  ⟨b.text ++ indent ++ text ++ ['\n'], false⟩

/-- Writes each line of a text; one line end at the end of the text counts for nothing. -/
def lines (depth : Nat) (text : List Char) (b : Buffer) : Buffer :=
  let text := (Text.dropSuffix? ['\n'] text).getD text
  if text.isEmpty then b
  else (text.splitOn '\n').foldl (fun b l => b.line depth l) b

def glue (b : Buffer) : Buffer := ⟨Text.trimEnd b.text, true⟩

end Buffer

end Haml
