import Haml.Proofs.Offset.Lines
import Haml.Proofs.Offset.Lists
import Haml.Tag
/-! Tag lines by offsets: a cursor moves through the text of a tag, which lines below may be joined
to. -/

namespace Haml.Offset

open Attribute

/-- A place in a text: the offset up to which it is read. -/
structure Cursor where
  text : List Char
  pos : Nat

namespace Cursor

def rest (c : Cursor) : Option (List Char) := cutFrom c.text c.pos

def peek (c : Cursor) : Option (Option Char) := c.rest.map List.head?

def advance (c : Cursor) (n : Nat) : Cursor := { c with pos := c.pos + n }

def takeWhile (p : Char → Bool) (c : Cursor) : Option (List Char × Cursor) := do
  let rest ← c.rest
  let length := (find? (fun ch => !p ch) rest).getD (byteLength rest)
  let taken ← cut rest 0 length
  return (taken, c.advance length)

section

variable (line : Nat)

def takeName (c : Cursor) : Run (String × Cursor) := do
  let first ← c.peek
  if first = some '%' then
    let (name, c) ← (c.advance 1).takeWhile Tag.isNameChar
    if name.isEmpty then throw (.invalidTag line (String.ofList c.text))
    else return (String.ofList name, c)
  else return ("div", c)

def takeShorthands (c : Cursor) : Run (List AttributeEntry × Cursor) := do
  let first ← c.peek
  match first with
  | none => return ([], c)
  | some sigil =>
      match Tag.shorthandName? sigil with
      | none => return ([], c)
      | some name =>
          let (value, c) ← (c.advance 1).takeWhile Tag.isShorthandChar
          if value.isEmpty then throw (.unknownShorthand line sigil)
          else
            let (entries, c) ← c |>.takeShorthands
            return (.fixed name (.text (String.ofList value)) :: entries, c)
partial_fixpoint

/-- What the brackets that start here hold. If they continue, lines below join the text until they
close. -/
def takeBracketed (continues : Bool) (c : Cursor) (l : Lexer) :
    Run (List Char × Cursor × Lexer) := do
  let rest ← c.rest
  match findClosing rest with
  | some close =>
      let inner ← cut rest 1 close
      return (inner, c.advance (close + 1), l)
  | none =>
      match if continues then l.nextRaw else none with
      | some (next, l) =>
          let c := { c with text := c.text ++ ' ' :: next }
          c |>.takeBracketed continues l
      | none => throw (.attributeSyntax line .unbalanced)
partial_fixpoint

def takeLists (c : Cursor) (l : Lexer) : Run (List AttributeEntry × Cursor × Lexer) := do
  let first ← c.peek
  match first with
  | some '{' =>
      let (inner, c, l) ← c.takeBracketed line true l
      let entries ← ofHash line inner
      let (more, c, l) ← c |>.takeLists l
      return (entries ++ more, c, l)
  | some '(' =>
      let (inner, c, l) ← c.takeBracketed line false l
      let entries ← ofList line inner
      let (more, c, l) ← c |>.takeLists l
      return (entries ++ more, c, l)
  | _ => return ([], c, l)
partial_fixpoint

def takeModifiers (c : Cursor) : Option (List Char × Cursor) := do
  let first ← c.peek
  match first with
  | none => return ([], c)
  | some modifier =>
      if Tag.isModifier modifier then
        let (modifiers, c) ← c.advance 1 |>.takeModifiers
        return (modifier :: modifiers, c)
      else return ([], c)
partial_fixpoint

end

end Cursor

def readTag (line : Nat) (text : List Char) (l : Lexer) : Run (Tag × Lexer) := do
  let (name, c) ← Cursor.takeName line ⟨text, 0⟩
  let (shorthands, c) ← c.takeShorthands line
  let (entries, c, l) ← c.takeLists line l
  let (modifiers, c) ← c.takeModifiers
  let rest ← c.rest
  match Tag.inlineContent? rest with
  | none => throw (.invalidTag line (String.ofList c.text))
  | some content =>
      let tag : Tag :=
        { name
          attributes := shorthands ++ entries
          selfClosing := modifiers.contains '/'
          trimOuter := modifiers.contains '>'
          trimInner := modifiers.contains '<'
          content }
      if tag.selfClosing && tag.content.isSome then
        throw (.illegalNesting line .selfClosingContent)
      else return (tag, l)

namespace Cursor

variable {c : Cursor} {text rest : List Char} {p : Char → Bool}

def At (c : Cursor) (text rest : List Char) : Prop :=
  ∃ before, text = before ++ rest ∧ c = ⟨text, byteLength before⟩

theorem at_start (text : List Char) : At ⟨text, 0⟩ text text := ⟨[], rfl, rfl⟩

theorem At.rest_eq (place : c.At text rest) : c.rest = some rest := by
  obtain ⟨before, whole, rfl⟩ := place
  exact cutFrom_eq _ whole rfl

theorem At.peek_eq (place : c.At text rest) : c.peek = some rest.head? := by
  rw [peek, place.rest_eq, Option.map_some]

theorem At.advance {front after : List Char} (place : c.At text (front ++ after)) {n : Nat}
    (length : n = byteLength front) : (c.advance n).At text after := by
  obtain ⟨before, whole, rfl⟩ := place
  refine ⟨before ++ front, ?_, ?_⟩
  · rw [whole, List.append_assoc]
  · rw [Cursor.advance, byteLength_append, length]

theorem At.append (place : c.At text rest) (more : List Char) :
    At { c with text := c.text ++ more } (text ++ more) (rest ++ more) := by
  obtain ⟨before, whole, rfl⟩ := place
  refine ⟨before, ?_, rfl⟩
  rw [whole, List.append_assoc]

theorem At.text_eq (place : c.At text rest) : c.text = text := by
  obtain ⟨before, -, rfl⟩ := place
  rfl

theorem At.takeWhile_eq (place : c.At text rest) (p : Char → Bool) :
    ∃ after, c.takeWhile p = some (rest.takeWhile p, after) ∧ after.At text (rest.dropWhile p) := by
  have length := find?_getD p rest
  have taken : cut rest 0 (byteLength (rest.takeWhile p)) = some (rest.takeWhile p) :=
    cut_front _ List.takeWhile_append_dropWhile.symm rfl
  refine ⟨c.advance (byteLength (rest.takeWhile p)), ?_, ?_⟩
  · rw [takeWhile, place.rest_eq]
    simp only [Option.bind_eq_bind, Option.bind_some, length, taken]
    rfl
  · rw [← List.takeWhile_append_dropWhile (p := p) (l := rest)] at place
    exact place.advance rfl

theorem At.next {first : Char} (place : c.At text (first :: rest)) (small : first.utf8Size = 1) :
    (c.advance 1).At text rest := by
  have parts : c.At text ([first] ++ rest) := place
  apply parts.advance
  simp [small]

end Cursor

section Agreement

variable {c : Cursor} {text rest : List Char}

theorem takeName_agrees (line : Nat) (text : List Char) :
    Agrees (fun a b => a.1 = b.1 ∧ a.2.At text b.2) (Cursor.takeName line ⟨text, 0⟩)
      (Tag.takeName line text) := by
  have place := Cursor.at_start text
  refine .step place.peek_eq ?_
  fun_cases Tag.takeName line text with
  | case1 rest name empty =>
      obtain ⟨after, taken, place⟩ := (place.next rfl).takeWhile_eq Tag.isNameChar
      refine .step taken ?_
      dsimp only
      rw [if_pos empty, place.text_eq]
      exact .error _
  | case2 rest name filled =>
      obtain ⟨after, taken, place⟩ := (place.next rfl).takeWhile_eq Tag.isNameChar
      refine .step taken ?_
      dsimp only
      rw [if_neg filled]
      exact .ok ⟨rfl, place⟩
  | case3 =>
      rename_i other
      have plain : text.head? ≠ some '%' := by
        intro first
        obtain ⟨rest, whole⟩ := List.head?_eq_some_iff.mp first
        exact other rest whole
      rw [if_neg plain]
      exact .ok ⟨rfl, place⟩

theorem utf8Size_of_shorthandName? {c : Char} {name : String}
    (found : Tag.shorthandName? c = some name) : c.utf8Size = 1 := by
  unfold Tag.shorthandName? at found
  split at found
  · next dot =>
      rw [dot]
      rfl
  · split at found
    · next hash =>
        rw [hash]
        rfl
    · cases found

theorem takeShorthands_agrees (place : c.At text rest) (line : Nat) :
    Agrees (fun a b => a.1 = b.1 ∧ a.2.At text b.2) (c.takeShorthands line)
      (Tag.takeShorthands line rest) := by
  fun_induction Tag.takeShorthands line rest generalizing c with
  | case1 =>
      rw [Cursor.takeShorthands]
      exact .step place.peek_eq (.ok ⟨rfl, place⟩)
  | case2 sigil cs absent =>
      rw [Cursor.takeShorthands]
      refine .step place.peek_eq ?_
      simp only [List.head?_cons, absent]
      exact .ok ⟨rfl, place⟩
  | case3 sigil cs name found value =>
      rename_i empty
      have start := place.next (utf8Size_of_shorthandName? found)
      obtain ⟨after, taken, -⟩ := start.takeWhile_eq Tag.isShorthandChar
      rw [Cursor.takeShorthands]
      refine .step place.peek_eq ?_
      simp only [List.head?_cons, found]
      refine .step taken ?_
      dsimp only
      rw [if_pos empty]
      exact .error _
  | case4 sigil cs name found value =>
      rename_i filled ih
      have peek := place.peek_eq
      have start := place.next (utf8Size_of_shorthandName? found)
      obtain ⟨after, taken, place⟩ := start.takeWhile_eq Tag.isShorthandChar
      rw [Cursor.takeShorthands]
      refine .step peek ?_
      simp only [List.head?_cons, found]
      refine .step taken ?_
      dsimp only
      rw [if_neg filled]
      refine (ih place).bind ?_
      rintro ⟨entries, last⟩ ⟨_, after⟩ - ⟨rfl, place⟩
      exact .ok ⟨rfl, place⟩

end Agreement

section Brackets

variable {start l : Lexer} {c : Cursor} {b : Char} {text tail inner after : List Char}
  {bracket : Bracket} {continues : Bool}

/-- Whether a reader differs from another by lines that it is past. -/
def Lexer.Ahead (start l : Lexer) : Prop :=
  ∃ n, l = { start with cursor := start.cursor + n } ∧ start.cursor + n ≤ start.lines.length

structure Reads (start : Lexer) (c : Cursor) (l : Lexer) (r : Tag.Reading) : Prop where
  place : c.At r.text r.rest
  ahead : start.Ahead l
  below : r.below = l.lines.drop l.cursor

theorem Lexer.Ahead.next {raw : List Char} (ahead : start.Ahead l)
    (next : l.lines[l.cursor]? = some raw) : start.Ahead { l with cursor := l.cursor + 1 } := by
  obtain ⟨n, rfl, -⟩ := ahead
  obtain ⟨within, -⟩ := List.getElem?_eq_some_iff.mp next
  exact ⟨n + 1, rfl, within⟩

theorem takeBracketed_of_closed (continues : Bool) (l : Lexer)
    (opens : ∀ cs, Token.classify b cs = (.opening bracket, 0)) (small : b.utf8Size = 1)
    (place : c.At text (b :: tail)) (closed : Token.bracketed (b :: tail) = some (inner, after))
    (line : Nat) :
    ∃ last, c.takeBracketed line continues l = pure (inner, last, l) ∧ last.At text after := by
  obtain ⟨close, one, rfl⟩ := exists_of_bracketed (opens tail) closed
  have found : findClosing (b :: (inner ++ (close ++ after))) = some (1 + byteLength inner) := by
    rw [findClosing_eq (opens _) small, closed]
    rfl
  have held : cut (b :: (inner ++ (close ++ after))) 1 (1 + byteLength inner) = some inner := by
    apply cut_eq [b] (close ++ after)
    · simp
    · simp [small]
    · simp [small]
  refine ⟨c.advance (1 + byteLength inner + 1), ?_, ?_⟩
  · rw [Cursor.takeBracketed, place.rest_eq, liftM_some_bind, found]
    dsimp only
    rw [held, liftM_some_bind]
  · have parts : c.At text (b :: (inner ++ close) ++ after) := by simpa using place
    apply parts.advance
    simp [small, one]
    omega

theorem takeBracketed_of_open (opens : ∀ cs, Token.classify b cs = (.opening bracket, 0))
    (small : b.utf8Size = 1) (place : c.At text (b :: tail))
    (unclosed : Token.bracketed (b :: tail) = none) (line : Nat) :
    c.takeBracketed line continues l =
      match if continues then l.nextRaw else none with
      | some (next, l) => { c with text := c.text ++ ' ' :: next }.takeBracketed line continues l
      | none => throw (.attributeSyntax line .unbalanced) := by
  have absent : findClosing (b :: tail) = none := by
    rw [findClosing_eq (opens _) small, unclosed]
    rfl
  rw [Cursor.takeBracketed, place.rest_eq, liftM_some_bind, absent]

def orUnbalanced {α : Type} (line : Nat) : Option α → Except Error α
  | none => .error (.attributeSyntax line .unbalanced)
  | some a => .ok a

/-- Brackets that may continue are read up to where they close on the lines below. -/
theorem takeBracketed_agrees (opens : ∀ cs, Token.classify b cs = (.opening bracket, 0))
    (small : b.utf8Size = 1) (place : c.At text (b :: tail)) (ahead : start.Ahead l) (line : Nat) :
    Agrees (fun a p => a.1 = p.1 ∧ Reads start a.2.1 a.2.2 p.2) (c.takeBracketed line true l)
      (orUnbalanced line (Tag.takeBracketed text (b :: tail) (l.lines.drop l.cursor))) := by
  generalize left : l.lines.drop l.cursor = below
  induction below generalizing text tail c l with
  | nil =>
      have absent : l.nextRaw = none := by
        rw [Lexer.nextRaw, List.getElem?_eq_none (List.drop_eq_nil_iff.mp left)]
        rfl
      rw [Tag.takeBracketed]
      cases closed : Token.bracketed (b :: tail) with
      | none =>
          rw [takeBracketed_of_open opens small place closed, if_pos rfl, absent]
          exact .error _
      | some p =>
          obtain ⟨last, read, place⟩ := takeBracketed_of_closed true l opens small
            place closed line
          rw [read]
          exact .ok ⟨rfl, place, ahead, left.symm⟩
  | cons next below ih =>
      have here : l.lines[l.cursor]? = some next := by
        rw [← List.head?_drop, left, List.head?_cons]
      have rest : l.lines.drop (l.cursor + 1) = below := by
        rw [← List.tail_drop, left, List.tail_cons]
      have filled : l.nextRaw = some (Text.trim next, { l with cursor := l.cursor + 1 }) := by
        rw [Lexer.nextRaw, here]
        rfl
      rw [Tag.takeBracketed]
      cases closed : Token.bracketed (b :: tail) with
      | none =>
          rw [takeBracketed_of_open opens small place closed, if_pos rfl, filled]
          exact ih (place.append _) (ahead.next here) rest
      | some p =>
          obtain ⟨last, read, place⟩ := takeBracketed_of_closed true l opens small
            place closed line
          rw [read]
          exact .ok ⟨rfl, place, ahead, left.symm⟩

theorem takeBracketed_agrees_within (opens : ∀ cs, Token.classify b cs = (.opening bracket, 0))
    (small : b.utf8Size = 1) (place : c.At text (b :: tail)) (ahead : start.Ahead l) (line : Nat) :
    Agrees (fun a p => a.1 = p.1 ∧
        Reads start a.2.1 a.2.2 { p.2 with below := l.lines.drop l.cursor })
      (c.takeBracketed line false l)
      (orUnbalanced line (Tag.takeBracketed text (b :: tail) [])) := by
  rw [Tag.takeBracketed]
  cases closed : Token.bracketed (b :: tail) with
  | none =>
      rw [takeBracketed_of_open opens small place closed]
      exact .error _
  | some p =>
      obtain ⟨last, read, place⟩ := takeBracketed_of_closed false l opens small place closed
        line
      rw [read]
      exact .ok ⟨rfl, place, ahead, rfl⟩

theorem classify_brace (cs : List Char) : Token.classify '{' cs = (.opening .brace, 0) := rfl

theorem classify_paren (cs : List Char) : Token.classify '(' cs = (.opening .paren, 0) := rfl

theorem takeBraces_agrees {r : Tag.Reading} (reads : Reads start c l r)
    (brace : r.rest.head? = some '{') (line : Nat) :
    Agrees (fun a p => a.1 = p.1 ∧ Reads start a.2.1 a.2.2 p.2) (c.takeBracketed line true l)
      (orUnbalanced line (Tag.takeBracketed r.text r.rest r.below)) := by
  obtain ⟨tail, rest⟩ := List.head?_eq_some_iff.mp brace
  have place := reads.place
  rw [rest] at place ⊢
  rw [reads.below]
  exact takeBracketed_agrees classify_brace rfl place reads.ahead line

theorem takeParens_agrees {r : Tag.Reading} (reads : Reads start c l r)
    (paren : r.rest.head? = some '(') (line : Nat) :
    Agrees (fun a p => a.1 = p.1 ∧ Reads start a.2.1 a.2.2 { p.2 with below := r.below })
      (c.takeBracketed line false l) (orUnbalanced line (Tag.takeBracketed r.text r.rest [])) := by
  obtain ⟨tail, rest⟩ := List.head?_eq_some_iff.mp paren
  have place := reads.place
  rw [rest] at place ⊢
  rw [reads.below]
  exact takeBracketed_agrees_within classify_paren rfl place reads.ahead line

theorem takeLists_append {entries : Run (List AttributeEntry)}
    {known : Except Error (List AttributeEntry)} {r : Tag.Reading} {line : Nat}
    (first : Agrees Eq entries known)
    (later : Agrees (fun a b => a.1 = b.1 ∧ Reads start a.2.1 a.2.2 b.2) (c.takeLists line l)
      (Tag.takeLists line r)) :
    Agrees (fun a b => a.1 = b.1 ∧ Reads start a.2.1 a.2.2 b.2)
      (do
        let entries ← entries
        let (more, c, l) ← c.takeLists line l
        return (entries ++ more, c, l))
      (do
        let entries ← known
        let (more, last) ← Tag.takeLists line r
        return (entries ++ more, last)) := by
  refine first.bind ?_
  rintro entries _ - rfl
  refine later.bind ?_
  rintro ⟨more, c, l⟩ ⟨_, r⟩ - ⟨rfl, reads⟩
  exact .ok ⟨rfl, reads⟩

theorem takeLists_agrees {r : Tag.Reading} (reads : Reads start c l r) (line : Nat) :
    Agrees (fun a b => a.1 = b.1 ∧ Reads start a.2.1 a.2.2 b.2) (c.takeLists line l)
      (Tag.takeLists line r) := by
  fun_induction Tag.takeLists line r generalizing c l with
  | case1 r brace unbalanced =>
      have held := takeBraces_agrees reads brace line
      rw [unbalanced] at held
      rw [Cursor.takeLists]
      refine .step reads.place.peek_eq ?_
      rw [brace]
      exact held.bind_error
  | case2 r brace inner after closed ih =>
      have held := takeBraces_agrees reads brace line
      rw [closed] at held
      rw [Cursor.takeLists]
      refine .step reads.place.peek_eq ?_
      rw [brace]
      refine held.bind_ok ?_
      rintro ⟨_, c, l⟩ ⟨rfl, reads⟩
      exact takeLists_append (ofHash_agrees line _) (ih reads)
  | case3 r paren unbalanced =>
      have held := takeParens_agrees reads paren line
      rw [unbalanced] at held
      rw [Cursor.takeLists]
      refine .step reads.place.peek_eq ?_
      rw [paren]
      exact held.bind_error
  | case4 r paren inner after closed ih =>
      have held := takeParens_agrees reads paren line
      rw [closed] at held
      rw [Cursor.takeLists]
      refine .step reads.place.peek_eq ?_
      rw [paren]
      refine held.bind_ok ?_
      rintro ⟨_, c, l⟩ ⟨rfl, reads⟩
      exact takeLists_append (ofList_agrees line _) (ih reads)
  | case5 r brace paren =>
      rw [Cursor.takeLists]
      refine .step reads.place.peek_eq ?_
      split
      · next first => exact absurd first brace
      · next first => exact absurd first paren
      · exact .ok ⟨rfl, reads⟩

theorem utf8Size_of_isModifier {first : Char} (modifier : Tag.isModifier first = true) :
    first.utf8Size = 1 := by
  simp only [Tag.isModifier, Bool.or_eq_true, beq_iff_eq] at modifier
  rcases modifier with (rfl | rfl) | rfl
  · rfl
  · rfl
  · rfl

/-- The modifiers are the characters up to the first that is none. -/
theorem takeModifiers_eq {text rest : List Char} (place : c.At text rest) :
    ∃ last, c.takeModifiers = some (rest.takeWhile Tag.isModifier, last) ∧
      last.At text (rest.dropWhile Tag.isModifier) := by
  induction rest generalizing c with
  | nil =>
      refine ⟨c, ?_, place⟩
      rw [Cursor.takeModifiers, place.peek_eq]
      rfl
  | cons first rest ih =>
      rw [Cursor.takeModifiers, place.peek_eq]
      cases modifier : Tag.isModifier first with
      | true =>
          obtain ⟨last, read, stop⟩ := ih (place.next (utf8Size_of_isModifier modifier))
          refine ⟨last, ?_, ?_⟩
          · simp [modifier, read]
          · simpa [modifier] using stop
      | false =>
          refine ⟨c, ?_, ?_⟩
          · simp [modifier]
          · simpa [modifier] using place

theorem readTag_agrees (start : Lexer) (line : Nat) (text : List Char)
    (within : start.cursor ≤ start.lines.length) :
    Agrees (fun a b => a.1 = b.1 ∧ start.Ahead a.2 ∧ b.2 = a.2.lines.drop a.2.cursor)
      (readTag line text start) (Tag.read line text (start.lines.drop start.cursor)) := by
  refine (takeName_agrees line text).bind ?_
  rintro ⟨name, c⟩ ⟨_, rest⟩ - ⟨rfl, place⟩
  refine (takeShorthands_agrees place line).bind ?_
  rintro ⟨shorthands, c⟩ ⟨_, rest⟩ - ⟨rfl, place⟩
  refine (takeLists_agrees (r := ⟨text, rest, start.lines.drop start.cursor⟩)
    ⟨place, ⟨0, rfl, within⟩, rfl⟩ line).bind ?_
  rintro ⟨entries, c, l⟩ ⟨_, r⟩ - ⟨rfl, reads⟩
  obtain ⟨last, modifiers, place⟩ := takeModifiers_eq reads.place
  refine .step modifiers (.step place.rest_eq ?_)
  dsimp only
  rw [place.text_eq]
  cases Tag.inlineContent? (r.rest.dropWhile Tag.isModifier) with
  | none => exact .error _
  | some content =>
      dsimp only
      split
      · exact .error _
      · exact .ok ⟨rfl, reads.ahead, reads.below⟩

end Brackets

end Haml.Offset
