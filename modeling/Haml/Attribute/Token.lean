/-! The tokens of an attribute list: at each place the longest token, and what is no token stays
part of the expression around it. -/

namespace Haml.Attribute

inductive Bracket where
  | brace
  | paren
  | square
  deriving DecidableEq, Repr

inductive TokenKind where
  | opening (bracket : Bracket)
  | closing (bracket : Bracket)
  | rocket
  | comma
  | colon
  | equals
  | symbol
  | name
  | doubleQuoted
  | singleQuoted
  | number
  | blank
  /-- Text that no token starts with. -/
  | other
  deriving DecidableEq, Repr

structure Token where
  kind : TokenKind
  text : List Char
  deriving DecidableEq, Repr

def Token.is (t : Token) (kind : TokenKind) : Bool := t.kind == kind

namespace Token

def isNameStart (c : Char) : Bool := c.isAlpha || c == '_'

def isNameChar (c : Char) : Bool := c.isAlphanum || c == '_' || c == '-'

def isBlankChar (c : Char) : Bool := c == ' ' || c == '\t' || c == '\r' || c == '\n'

/-- The length of a quoted text after its opening quote, with the closing quote; or else how far
the text could have been one. -/
def quotedLength (quote : Char) : List Char → Bool × Nat
  | [] => (false, 0)
  | '\\' :: c :: cs =>
      if c == '\n' then (false, 1)
      else
        let (closed, n) := quotedLength quote cs
        (closed, n + 2)
  | c :: cs =>
      if c == quote then (true, 1)
      else if c == '\\' then (false, 1)
      else
        let (closed, n) := quotedLength quote cs
        (closed, n + 1)

def digitCount (cs : List Char) : Nat := (cs.takeWhile Char.isDigit).length

def fractionLength : List Char → Nat
  | '.' :: cs => if digitCount cs = 0 then 0 else digitCount cs + 1
  | _ => 0

def exponentLength : List Char → Nat
  | c :: cs =>
      if c == 'e' || c == 'E' then
        let sign := match cs with
          | '+' :: _ => 1
          | '-' :: _ => 1
          | _ => 0
        let n := digitCount (cs.drop sign)
        if n = 0 then 0 else n + sign + 1
      else 0
  | [] => 0

def numberLength (cs : List Char) : Nat :=
  let whole := digitCount cs
  if whole = 0 then 0
  else
    let part := whole + fractionLength (cs.drop whole)
    part + exponentLength (cs.drop part)

def nameLength : List Char → Nat
  | c :: cs => if isNameStart c then (cs.takeWhile isNameChar).length + 1 else 0
  | [] => 0

/-- The kind of the token that `c :: cs` starts with, and how many characters of `cs` it takes. -/
def classify (c : Char) (cs : List Char) : TokenKind × Nat :=
  match c with
  | '{' => (.opening .brace, 0)
  | '}' => (.closing .brace, 0)
  | '(' => (.opening .paren, 0)
  | ')' => (.closing .paren, 0)
  | '[' => (.opening .square, 0)
  | ']' => (.closing .square, 0)
  | ',' => (.comma, 0)
  | '=' => if cs.head? = some '>' then (.rocket, 1) else (.equals, 0)
  | ':' => if nameLength cs = 0 then (.colon, 0) else (.symbol, nameLength cs)
  | '"' =>
      let (closed, n) := quotedLength '"' cs
      (if closed then .doubleQuoted else .other, n)
  | '\'' =>
      let (closed, n) := quotedLength '\'' cs
      (if closed then .singleQuoted else .other, n)
  | '-' => if numberLength cs = 0 then (.other, 0) else (.number, numberLength cs)
  | c =>
      if isNameStart c then (.name, (cs.takeWhile isNameChar).length)
      else if c.isDigit then (.number, numberLength (c :: cs) - 1)
      else if isBlankChar c then (.blank, (cs.takeWhile isBlankChar).length)
      else (.other, 0)

def scan : List Char → List Token
  | [] => []
  | c :: cs =>
      let (kind, n) := classify c cs
      ⟨kind, c :: cs.take n⟩ :: scan (cs.drop n)
termination_by cs => cs.length
decreasing_by
  simp only [List.length_drop, List.length_cons]
  omega

def texts (tokens : List Token) : List Char := tokens.flatMap Token.text

theorem texts_scan (cs : List Char) : texts (scan cs) = cs := by
  induction h : cs.length using Nat.strongRecOn generalizing cs with
  | ind n ih =>
      cases cs with
      | nil => simp [scan, texts]
      | cons c cs =>
          rw [scan]
          generalize hk : classify c cs = found
          obtain ⟨kind, k⟩ := found
          have hlen : (cs.drop k).length < n := by
            simp at h ⊢
            omega
          have := ih _ hlen (cs.drop k) rfl
          simp only [texts] at this
          simp [texts, this]

def isBlank (t : Token) : Bool := t.is .blank

def trim (tokens : List Token) : List Token :=
  ((tokens.dropWhile isBlank).reverse.dropWhile isBlank).reverse

def opens (t : Token) : Bool :=
  match t.kind with
  | .opening _ => true
  | _ => false

def closes (t : Token) : Bool :=
  match t.kind with
  | .closing _ => true
  | _ => false

/-- The tokens before the one that brings `depth` open brackets down to none, and those after it.
One count stands for the brackets of every kind. -/
def closing (depth : Nat) : List Token → Option (List Token × List Token)
  | [] => none
  | t :: ts =>
      if t.closes && depth ≤ 1 then if depth = 1 then some ([], ts) else none
      else
        let depth := if t.opens then depth + 1 else if t.closes then depth - 1 else depth
        (closing depth ts).map fun (inner, rest) => (t :: inner, rest)

/-- Cuts a text that starts with a bracket into what the brackets hold and what follows them. -/
def bracketed (cs : List Char) : Option (List Char × List Char) :=
  match scan cs with
  | t :: ts =>
      if t.opens then (closing 1 ts).map fun (inner, rest) => (texts inner, texts rest) else none
  | [] => none

theorem closing_append {depth : Nat} {ts inner rest : List Token}
    (h : closing depth ts = some (inner, rest)) :
    ∃ t, t.closes = true ∧ ts = inner ++ t :: rest := by
  induction ts generalizing depth inner with
  | nil => simp [closing] at h
  | cons t ts ih =>
      simp only [closing] at h
      split at h
      · next hc =>
          simp only [Bool.and_eq_true] at hc
          split at h
          · simp only [Option.some.injEq, Prod.mk.injEq] at h
            obtain ⟨rfl, rfl⟩ := h
            exact ⟨t, hc.1, rfl⟩
          · simp at h
      · simp only [Option.map_eq_some_iff, Prod.mk.injEq, Prod.exists] at h
        obtain ⟨i, r, hr, rfl, rfl⟩ := h
        obtain ⟨u, hu, rfl⟩ := ih hr
        exact ⟨u, hu, rfl⟩

theorem length_bracketed {cs inner rest : List Char} (h : bracketed cs = some (inner, rest)) :
    rest.length < cs.length := by
  have hcs := texts_scan cs
  unfold bracketed at h
  cases hs : scan cs with
  | nil => simp [hs] at h
  | cons t ts =>
      rw [hs] at h hcs
      cases cs with
      | nil => simp [scan] at hs
      | cons c cs =>
          rw [scan] at hs
          simp only [List.cons.injEq] at hs
          obtain ⟨ht, -⟩ := hs
          simp only at h
          split at h
          · simp only [Option.map_eq_some_iff, Prod.mk.injEq, Prod.exists] at h
            obtain ⟨i, r, hr, rfl, rfl⟩ := h
            obtain ⟨u, -, rfl⟩ := closing_append hr
            have := congrArg List.length hcs
            simp only [texts, List.flatMap_cons, List.flatMap_append, List.length_append, ← ht,
              List.length_cons] at this ⊢
            omega
          · simp at h

def splitCommas (depth : Nat) : List Token → List (List Token)
  | [] => [[]]
  | t :: ts =>
      if t.is .comma && depth = 0 then [] :: splitCommas 0 ts
      else
        let depth := if t.opens then depth + 1 else if t.closes then depth - 1 else depth
        (splitCommas depth ts).modifyHead (t :: ·)

end Token

end Haml.Attribute
