/-! Markup text: the five characters that are written as entities. -/

namespace Haml.Markup

def entity : Char → List Char
  | '&' => "&amp;".toList
  | '<' => "&lt;".toList
  | '>' => "&gt;".toList
  | '"' => "&quot;".toList
  | '\'' => "&#x27;".toList
  | c => [c]

def escapeChars (cs : List Char) : List Char := cs.flatMap entity

def escape (text : String) : String := String.ofList (escapeChars text.toList)

theorem escape_append (a b : String) : escape (a ++ b) = escape a ++ escape b := by
  simp [escape, escapeChars, String.ofList_append]

end Haml.Markup
