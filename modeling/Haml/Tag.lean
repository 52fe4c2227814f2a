import Haml.Node
/-! Tag lines: a name or shorthands, attribute lists, modifiers and inline content. -/

namespace Haml.Tag

def isNameChar (c : Char) : Bool := c.isAlphanum || c == '_' || c == '-' || c == ':'

def isShorthandChar (c : Char) : Bool := c.isAlphanum || c == '_' || c == '-'

/-- The tag's name and the text after it. Without `%` the name is `div`. -/
def takeName (line : Nat) (text : List Char) : Except Error (String × List Char) :=
  match text with
  | '%' :: rest =>
      let name := rest.takeWhile isNameChar
      if name.isEmpty then .error (.invalidTag line (String.ofList text))
      else .ok (String.ofList name, rest.dropWhile isNameChar)
  | _ => .ok ("div", text)

def shorthandName? (c : Char) : Option String :=
  if c = '.' then some "class" else if c = '#' then some "id" else none

def takeShorthands (line : Nat) : List Char → Except Error (List AttributeEntry × List Char)
  | [] => .ok ([], [])
  | c :: cs =>
      match shorthandName? c with
      | none => .ok ([], c :: cs)
      | some name =>
          let value := cs.takeWhile isShorthandChar
          if value.isEmpty then .error (.unknownShorthand line c)
          else do
            let (entries, rest) ← takeShorthands line (cs.dropWhile isShorthandChar)
            return (.fixed name (.text (String.ofList value)) :: entries, rest)
termination_by cs => cs.length
decreasing_by
  have := (List.dropWhile_sublist isShorthandChar (l := cs)).length_le
  simp only [List.length_cons]
  omega

/-- A tag line being read: its text, the part still to read, and the lines below it. -/
structure Reading where
  text : List Char
  rest : List Char
  below : List (List Char)

def Reading.size (r : Reading) : Nat :=
  r.rest.length + r.below.foldr (fun line size => line.length + 1 + size) 0

/-- What the brackets at the start of the rest hold. Lines below join the text, each after a space,
until the brackets close. -/
def takeBracketed (text rest : List Char) : List (List Char) → Option (List Char × Reading)
  | [] => (Attribute.Token.bracketed rest).map fun (inner, after) => (inner, ⟨text, after, []⟩)
  | next :: below =>
      match Attribute.Token.bracketed rest with
      | some (inner, after) => some (inner, ⟨text, after, next :: below⟩)
      | none =>
          let more := ' ' :: Text.trim next
          takeBracketed (text ++ more) (rest ++ more) below

theorem length_trim_le (cs : List Char) : (Text.trim cs).length ≤ cs.length := by
  have h₁ := (List.dropWhile_sublist Text.isBlank (l := cs)).length_le
  have h₂ := (List.dropWhile_sublist Text.isBlank (l := (cs.dropWhile Text.isBlank).reverse)).length_le
  simp only [List.length_reverse] at h₂
  simp only [Text.trim, Text.trimEnd, Text.trimStart, Text.dropEnd, List.length_reverse]
  omega

theorem size_takeBracketed {text rest inner : List Char} {below : List (List Char)} {r : Reading}
    (h : takeBracketed text rest below = some (inner, r)) :
    r.size < (Reading.mk text rest below).size := by
  induction below generalizing text rest with
  | nil =>
      simp only [takeBracketed, Option.map_eq_some_iff, Prod.mk.injEq, Prod.exists] at h
      obtain ⟨i, after, ha, rfl, rfl⟩ := h
      have := Attribute.Token.length_bracketed ha
      simpa [Reading.size] using this
  | cons next below ih =>
      simp only [takeBracketed] at h
      split at h
      · next i after ha =>
          simp only [Option.some.injEq, Prod.mk.injEq] at h
          obtain ⟨rfl, rfl⟩ := h
          have := Attribute.Token.length_bracketed ha
          simp only [Reading.size]
          omega
      · have := ih h
        have hl := length_trim_le next
        simp only [Reading.size, List.length_append, List.length_cons, List.foldr_cons] at this ⊢
        omega

/-- The attribute lists in braces, which may continue on the lines below, and in parentheses. -/
def takeLists (line : Nat) (r : Reading) : Except Error (List AttributeEntry × Reading) :=
  match r.rest.head? with
  | some '{' =>
      match _h : takeBracketed r.text r.rest r.below with
      | none => .error (.attributeSyntax line .unbalanced)
      | some (inner, after) => do
          let entries ← Attribute.ofHash line inner
          let (more, last) ← takeLists line after
          return (entries ++ more, last)
  | some '(' =>
      match _h : takeBracketed r.text r.rest [] with
      | none => .error (.attributeSyntax line .unbalanced)
      | some (inner, after) => do
          let entries ← Attribute.ofList line inner
          let (more, last) ← takeLists line { after with below := r.below }
          return (entries ++ more, last)
  | _ => .ok ([], r)
termination_by r.size
decreasing_by
  · exact size_takeBracketed _h
  · have := size_takeBracketed _h
    simp only [Reading.size, List.foldr_nil] at this ⊢
    omega

def isModifier (c : Char) : Bool := c == '<' || c == '>' || c == '/'

def inlineOutput (code : List Char) (escaping : Escaping) : InlineContent :=
  .output (String.ofList (Text.trim code)) escaping

/-- The content written after a tag; `none` if the text there is no content. -/
def inlineContent? : List Char → Option (Option InlineContent)
  | [] => some none
  | '!' :: '=' :: code => some (some (inlineOutput code .never))
  | '&' :: '=' :: code => some (some (inlineOutput code .always))
  | '=' :: code => some (some (inlineOutput code .standard))
  | c :: cs =>
      if Text.isIndent c then
        let text := Text.trim (c :: cs)
        some (if text.isEmpty then none else some (.text (String.ofList text)))
      else none

/-- Reads a tag line; the lines below that its hashes do not take are given back. -/
def read (line : Nat) (text : List Char) (below : List (List Char)) :
    Except Error (Tag × List (List Char)) := do
  let (name, rest) ← takeName line text
  let (shorthands, rest) ← takeShorthands line rest
  let (entries, r) ← takeLists line ⟨text, rest, below⟩
  let modifiers := r.rest.takeWhile isModifier
  let some content := inlineContent? (r.rest.dropWhile isModifier)
    | .error (.invalidTag line (String.ofList r.text))
  let tag : Tag :=
    { name
      attributes := shorthands ++ entries
      selfClosing := modifiers.contains '/'
      trimOuter := modifiers.contains '>'
      trimInner := modifiers.contains '<'
      content }
  if tag.selfClosing && tag.content.isSome then
    .error (.illegalNesting line .selfClosingContent)
  else return (tag, r.below)

end Haml.Tag
