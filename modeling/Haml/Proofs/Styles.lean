import Haml.Compile
import Haml.Proofs.Alone
import Haml.Proofs.Styles.Pairs
/-! Styles of attributes: it makes no difference to a tag in which style its attributes are written,
and classes and ids may as well be written as shorthands. -/

namespace Haml

namespace Attribute.Style

variable (s : Style) {p q : List Char × List Char} {pairs : List (List Char × List Char)}

open Token

theorem unclosed_tokens (formed : ∀ p ∈ pairs, IsPair p) :
    ∀ t ∈ s.tokens pairs, t.unclosed = false := by
  induction pairs with
  | nil => exact nofun
  | cons p pairs ih =>
      obtain ⟨⟨-, value⟩, others⟩ := List.forall_mem_cons.mp formed
      have here := s.unclosed_pairTokens (n := p.1) value
      cases pairs with
      | nil =>
          rw [tokens_singleton]
          exact here
      | cons q pairs =>
          have separators : ∀ t ∈ s.separatorTokens, t.unclosed = false := by
            cases s <;> simp [separatorTokens, unclosed, Token.is]
          rw [tokens_cons_cons]
          intro t member
          rcases List.mem_append.mp member with first | member
          · exact here t first
          rcases List.mem_append.mp member with between | rest
          · exact separators t between
          · exact ih others t rest

theorem level_tokens (formed : ∀ p ∈ pairs, IsPair p) :
    level (fun _ => false) 0 (s.tokens pairs) = some 0 := by
  induction pairs with
  | nil => rfl
  | cons p pairs ih =>
      obtain ⟨⟨-, value⟩, others⟩ := List.forall_mem_cons.mp formed
      have here := level_mono (q := fun _ => false) (s.level_pairTokens value p.1) nofun
      cases pairs with
      | nil =>
          rw [tokens_singleton]
          exact here
      | cons q pairs =>
          have separators : level (fun _ => false) 0 s.separatorTokens = some 0 := by
            cases s <;> rfl
          rw [tokens_cons_cons, level_append, here, Option.bind_some, level_append, separators]
          exact ih others

theorem bracketed_inner (formed : ∀ p ∈ pairs, IsPair p) {opening closing : Char} {b : Bracket}
    (opens : ∀ cs, classify opening cs = (.opening b, 0)) (stop : stops closing = true)
    (closes : ∀ cs, classify closing cs = (.closing b, 0)) (tail : List Char) :
    bracketed (opening :: (s.inner pairs ++ closing :: tail)) = some (s.inner pairs, tail) := by
  have tokens := s.scan_inner formed
  have quoted : Quoted (s.inner pairs) := by
    rw [Quoted, tokens]
    exact s.unclosed_tokens formed
  have visible : isBlankChar closing = true → ∀ t ∈ (scan (s.inner pairs)).getLast?,
      t.isBlank = false := by
    intro blank
    cases (closes []).symm.trans (classify_blank blank [])
  have inside : scan (s.inner pairs ++ closing :: tail) =
      s.tokens pairs ++ ⟨.closing b, [closing]⟩ :: scan tail := by
    rw [scan_before stop quoted visible, tokens, scan_cons (closes tail)]
    rfl
  have first : scan (opening :: (s.inner pairs ++ closing :: tail)) =
      ⟨.opening b, [opening]⟩ :: scan (s.inner pairs ++ closing :: tail) := scan_cons (opens _)
  have opened : (Token.mk (.opening b) [opening]).opens = true := rfl
  have whole := texts_scan (s.inner pairs)
  rw [tokens] at whole
  rw [bracketed, first, inside]
  simp only [opened, if_true]
  rw [closing_of_level (s.level_tokens formed) rfl, Option.map_some, whole, texts_scan]

theorem bracketed_write (formed : ∀ p ∈ pairs, IsPair p) (tail : List Char) :
    bracketed (s.write pairs ++ tail) = some (s.inner pairs, tail) := by
  have brace (cs : List Char) : classify '{' cs = (.opening .brace, 0) := rfl
  have paren (cs : List Char) : classify '(' cs = (.opening .paren, 0) := rfl
  cases s with
  | list => simpa [write] using bracketed_inner .list formed paren rfl (fun _ => rfl) tail
  | rocket => simpa [write] using bracketed_inner .rocket formed brace rfl (fun _ => rfl) tail
  | colon => simpa [write] using bracketed_inner .colon formed brace rfl (fun _ => rfl) tail
  | quotedRocket =>
      simpa [write] using bracketed_inner .quotedRocket formed brace rfl (fun _ => rfl) tail
  | quotedColon =>
      simpa [write] using bracketed_inner .quotedColon formed brace rfl (fun _ => rfl) tail

end Attribute.Style

namespace Tag

open Attribute

section

variable (line : Nat) {text tail : List Char} {pairs : List (List Char × List Char)}

/-- Attributes are read as the entries of their pairs, before the lists that follow. -/
theorem takeLists_write (s : Style) (formed : ∀ p ∈ pairs, IsPair p) (text tail : List Char)
    (below : List (List Char)) :
    takeLists line ⟨text, s.write pairs ++ tail, below⟩ = do
      let found ← entries line pairs
      let (more, last) ← takeLists line ⟨text, tail, below⟩
      return (found ++ more, last) := by
  have cut (below : List (List Char)) : takeBracketed text (s.write pairs ++ tail) below =
      some (s.inner pairs, ⟨text, tail, below⟩) :=
    takeBracketed_below (s.bracketed_write formed tail) below
  -- Lists are told from hashes by their first character, before anything is scanned.
  by_cases list : s = .list
  · subst list
    rw [takeLists]
    split
    · next brace => cases brace
    · split
      · next unbalanced =>
          simp only [cut] at unbalanced
          cases unbalanced
      · next inner after here =>
          simp only [cut] at here
          cases here
          rw [ofList_inner line formed]
    · next paren => exact absurd rfl paren
  · have brace : (s.write pairs ++ tail).head? = some '{' := by
      cases s with
      | list => exact absurd rfl list
      | rocket | colon | quotedRocket | quotedColon => rfl
    rw [takeLists]
    split
    · split
      · next unbalanced =>
          simp only [cut] at unbalanced
          cases unbalanced
      · next inner after here =>
          simp only [cut] at here
          cases here
          rw [ofHash_inner line list formed]
    · next paren =>
        simp only at paren
        rw [brace] at paren
        cases paren
    · next other _ => exact absurd brace other

/-- What may follow the attributes of a tag: modifiers, and content or nothing. -/
def Ends (tail : List Char) (content : Option InlineContent) : Prop :=
  inlineContent? (tail.dropWhile isModifier) = some content

variable {content : Option InlineContent}

theorem Ends.head (ends : Ends tail content) :
    ∀ c ∈ tail.head?, c ∈ ['<', '>', '/', '!', '&', '=', ' ', '\t'] := by
  intro c head
  obtain ⟨cs, rfl⟩ := List.head?_eq_some_iff.mp head
  by_cases modifier : isModifier c = true
  · simp only [isModifier, Bool.or_eq_true, beq_iff_eq] at modifier
    rcases modifier with (rfl | rfl) | rfl <;> simp
  · rw [Ends, List.dropWhile_cons_of_neg modifier] at ends
    unfold inlineContent? at ends
    split at ends
    · next empty => cases empty
    · next code same =>
        cases same
        simp
    · next code same =>
        cases same
        simp
    · next code same =>
        cases same
        simp
    · next d ds _ _ _ same =>
        cases same
        split at ends
        · next indent =>
            simp only [Text.isIndent, Bool.or_eq_true, beq_iff_eq] at indent
            rcases indent with rfl | rfl <;> simp
        · cases ends

theorem takeLists_ends (ends : Ends tail content) (text : List Char) (below : List (List Char)) :
    takeLists line ⟨text, tail, below⟩ = .ok ([], ⟨text, tail, below⟩) := by
  rw [takeLists]
  split
  · next brace =>
      have known := ends.head '{' brace
      simp at known
  · next paren =>
      have known := ends.head '(' paren
      simp at known
  · rfl

theorem span_append {p : Char → Bool} {cs more : List Char} (all : ∀ c ∈ cs, p c = true)
    (other : ∀ c ∈ more.head?, p c = false) :
    (cs ++ more).takeWhile p = cs ∧ (cs ++ more).dropWhile p = more := by
  have stops : more.takeWhile p = [] ∧ more.dropWhile p = more := by
    cases more with
    | nil => exact ⟨rfl, rfl⟩
    | cons c more =>
        have here : ¬ p c = true := by simp [other c rfl]
        exact ⟨List.takeWhile_cons_of_neg here, List.dropWhile_cons_of_neg here⟩
  rw [List.takeWhile_append_of_pos all, List.dropWhile_append_of_pos all, stops.1, stops.2,
    List.append_nil]
  exact ⟨rfl, rfl⟩

structure IsShorthand (m : Char × List Char) : Prop where
  mark : m.1 = '.' ∨ m.1 = '#'
  filled : m.2 ≠ []
  plain : ∀ c ∈ m.2, isShorthandChar c = true

def shorthandKey (mark : Char) : List Char := if mark = '.' then "class".toList else "id".toList

def shorthandText (marks : List (Char × List Char)) : List Char :=
  marks.flatMap fun m => m.1 :: m.2

def shorthandEntries (marks : List (Char × List Char)) : List AttributeEntry :=
  marks.map fun m => .fixed (String.ofList (shorthandKey m.1)) (.text (String.ofList m.2))

theorem head_shorthandText {marks : List (Char × List Char)}
    (formed : ∀ m ∈ marks, IsShorthand m) {rest : List Char} :
    ∀ c ∈ (shorthandText marks ++ rest).head?, c = '.' ∨ c = '#' ∨ rest.head? = some c := by
  intro c head
  cases marks with
  | nil => exact .inr (.inr head)
  | cons m marks =>
      cases head
      rcases (formed m (List.mem_cons_self ..)).mark with dot | hash
      · exact .inl dot
      · exact .inr (.inl hash)

theorem takeShorthands_text {marks : List (Char × List Char)}
    (formed : ∀ m ∈ marks, IsShorthand m) {rest : List Char}
    (other : ∀ c ∈ rest.head?, isShorthandChar c = false ∧ shorthandName? c = none) :
    takeShorthands line (shorthandText marks ++ rest) = .ok (shorthandEntries marks, rest) := by
  induction marks with
  | nil =>
      rw [shorthandText, List.flatMap_nil, List.nil_append]
      cases rest with
      | nil =>
          rw [takeShorthands]
          rfl
      | cons c cs =>
          rw [takeShorthands, (other c rfl).2]
          rfl
  | cons m marks ih =>
      obtain ⟨here, others⟩ := List.forall_mem_cons.mp formed
      obtain ⟨mark, value⟩ := m
      have next : ∀ c ∈ (shorthandText marks ++ rest).head?, isShorthandChar c = false := by
        intro c head
        rcases head_shorthandText others c head with rfl | rfl | head
        · rfl
        · rfl
        · exact (other c head).1
      obtain ⟨taken, left⟩ := span_append here.plain next
      have name : shorthandName? mark = some (String.ofList (shorthandKey mark)) := by
        rcases here.mark with rfl | rfl <;> rfl
      have filled : value.isEmpty = false := List.isEmpty_eq_false_iff.mpr here.filled
      have text : shorthandText ((mark, value) :: marks) ++ rest =
          mark :: (value ++ (shorthandText marks ++ rest)) := by
        simp [shorthandText]
      rw [text, takeShorthands, name]
      simp only [taken, left, filled, ih others]
      rfl

def opening (name : Option (List Char)) : List Char :=
  match name with
  | some name => '%' :: name
  | none => []

def nameOf (name : Option (List Char)) : List Char := name.getD "div".toList

/-- Whether a tag can be named so. -/
def IsOpening (name : Option (List Char)) : Prop :=
  ∀ n ∈ name, n ≠ [] ∧ ∀ c ∈ n, isNameChar c = true

theorem takeName_opening {name : Option (List Char)} (named : IsOpening name) {rest : List Char}
    (other : ∀ c ∈ rest.head?, isNameChar c = false ∧ c ≠ '%') :
    takeName line (opening name ++ rest) = .ok (String.ofList (nameOf name), rest) := by
  cases name with
  | none =>
      cases rest with
      | nil => rfl
      | cons c cs => simp [opening, takeName, (other c rfl).2, nameOf]
  | some n =>
      obtain ⟨filled, all⟩ := named n rfl
      obtain ⟨taken, left⟩ := span_append all fun c head => (other c head).1
      have given : n.isEmpty = false := List.isEmpty_eq_false_iff.mpr filled
      rw [opening, List.cons_append, takeName]
      simp only [taken, left, given]
      rfl

def ended (name : Option (List Char)) (attributes : List AttributeEntry) (tail : List Char)
    (content : Option InlineContent) (below : List (List Char)) :
    Except Error (Tag × List (List Char)) :=
  let modifiers := tail.takeWhile isModifier
  let tag : Tag :=
    { name := String.ofList (nameOf name)
      attributes
      selfClosing := modifiers.contains '/'
      trimOuter := modifiers.contains '>'
      trimInner := modifiers.contains '<'
      content }
  if tag.selfClosing && tag.content.isSome then .error (.illegalNesting line .selfClosingContent)
  else .ok (tag, below)

def starts : List Char := ['{', '(', '<', '>', '/', '!', '&', '=', ' ', '\t']

theorem other_of_starts : ∀ c ∈ starts, isNameChar c = false ∧ isShorthandChar c = false ∧
    shorthandName? c = none ∧ c ≠ '%' := by
  intro c member
  simp only [starts, List.mem_cons, List.not_mem_nil, or_false] at member
  rcases member with rfl | rfl | rfl | rfl | rfl | rfl | rfl | rfl | rfl | rfl
  all_goals decide

variable {name : Option (List Char)} {marks : List (Char × List Char)} {lists : List Char}
  {below : List (List Char)}

theorem take_opening (named : IsOpening name) (formed : ∀ m ∈ marks, IsShorthand m)
    (known : ∀ c ∈ lists.head?, c ∈ starts) :
    takeName line (opening name ++ (shorthandText marks ++ lists)) =
        .ok (String.ofList (nameOf name), shorthandText marks ++ lists) ∧
      takeShorthands line (shorthandText marks ++ lists) = .ok (shorthandEntries marks, lists) := by
  constructor
  · refine takeName_opening line named fun c head => ?_
    rcases head_shorthandText formed c head with rfl | rfl | head
    · decide
    · decide
    · have other := other_of_starts c (known c head)
      exact ⟨other.1, other.2.2.2⟩
  · refine takeShorthands_text line formed fun c head => ?_
    have other := other_of_starts c (known c head)
    exact ⟨other.2.1, other.2.2.1⟩

/-- A tag is read from its name to its shorthands, its lists and its end. -/
theorem read_opening (named : IsOpening name) (formed : ∀ m ∈ marks, IsShorthand m)
    (ends : Ends tail content) (known : ∀ c ∈ lists.head?, c ∈ starts)
    {found : Except Error (List AttributeEntry)}
    (taken : ∀ text, takeLists line ⟨text, lists, below⟩ =
      found.map fun entries => (entries, ⟨text, tail, below⟩)) :
    Tag.read line (opening name ++ (shorthandText marks ++ lists)) below = found.bind fun entries =>
      ended line name (shorthandEntries marks ++ entries) tail content below := by
  obtain ⟨first, second⟩ := take_opening line named formed known
  rw [Tag.read, first]
  simp only [bind, Except.bind]
  rw [second]
  simp only
  rw [taken]
  cases found with
  | error e => rfl
  | ok entries =>
      have content := ends
      rw [Ends] at content
      simp only [Except.map, content]
      rfl

theorem head_write (s : Style) (pairs : List (List Char × List Char)) (tail : List Char) :
    ∀ c ∈ (s.write pairs ++ tail).head?, c ∈ starts := by
  cases s with
  | list =>
      rintro c ⟨⟩
      decide
  | rocket | colon | quotedRocket | quotedColon =>
      rintro c ⟨⟩
      decide

/-- In every style, a tag has its shorthands and then the entries of the pairs. -/
theorem read_write (named : IsOpening name) (formed : ∀ m ∈ marks, IsShorthand m)
    (paired : ∀ p ∈ pairs, IsPair p) (ends : Ends tail content) (s : Style) :
    Tag.read line (opening name ++ (shorthandText marks ++ (s.write pairs ++ tail))) below =
      (entries line pairs).bind fun entries =>
        ended line name (shorthandEntries marks ++ entries) tail content below := by
  refine read_opening line named formed ends (head_write s pairs tail) fun text => ?_
  rw [takeLists_write line s paired, takeLists_ends line ends]
  cases entries line pairs with
  | error e => rfl
  | ok found => simp [bind, Except.bind, pure, Except.pure, Except.map]

theorem read_shorthands (named : IsOpening name) (formed : ∀ m ∈ marks, IsShorthand m)
    (ends : Ends tail content) :
    Tag.read line (opening name ++ (shorthandText marks ++ tail)) below =
      ended line name (shorthandEntries marks) tail content below := by
  have known : ∀ c ∈ tail.head?, c ∈ starts := fun c head =>
    List.mem_cons_of_mem _ (List.mem_cons_of_mem _ (ends.head c head))
  have taken (text : List Char) : takeLists line ⟨text, tail, below⟩ =
      (Except.ok []).map fun entries => (entries, ⟨text, tail, below⟩) :=
    takeLists_ends line ends text below
  rw [read_opening line named formed ends known taken, Except.bind, List.append_nil]

theorem isMarked_of_plain {cs : List Char} (plain : ∀ c ∈ cs, isShorthandChar c = true) :
    Interpolation.isMarked cs = false := by
  refine Bool.eq_false_iff.mpr fun marked => ?_
  have hash : '#' ∈ cs := (Interpolation.infix_of_isMarked marked).subset (List.mem_cons_self ..)
  cases plain '#' hash

def shorthandPairs (quote : Char) (marks : List (Char × List Char)) :
    List (List Char × List Char) :=
  marks.map fun m => (shorthandKey m.1, quote :: (m.2 ++ [quote]))

theorem isPair_shorthandPairs {quote : Char} (isQuote : IsQuote quote)
    (formed : ∀ m ∈ marks, IsShorthand m) : ∀ p ∈ shorthandPairs quote marks, IsPair p := by
  intro p member
  obtain ⟨m, among, rfl⟩ := List.mem_map.mp member
  obtain ⟨mark, -, plain⟩ := formed m among
  have named : IsName (shorthandKey m.1) := by
    rcases mark with dot | hash
    · rw [dot]
      exact ⟨'c', "lass".toList, rfl, rfl, List.all_eq_true.mp rfl⟩
    · rw [hash]
      exact ⟨'i', "d".toList, rfl, rfl, List.all_eq_true.mp rfl⟩
  refine ⟨named, isValue_quoted isQuote (quotedLength_plain isQuote fun c inside => ?_)⟩
  exact isPlain_of_isNameChar (plain c inside)

theorem entries_shorthandPairs {quote : Char} (isQuote : IsQuote quote)
    (formed : ∀ m ∈ marks, IsShorthand m) :
    entries line (shorthandPairs quote marks) = .ok (shorthandEntries marks) := by
  induction marks with
  | nil => rfl
  | cons m marks ih =>
      obtain ⟨⟨-, -, plain⟩, others⟩ := List.forall_mem_cons.mp formed
      have ordinary : ∀ c ∈ m.2, isPlain c = true := fun c inside =>
        isPlain_of_isNameChar (plain c inside)
      have unmarked := isMarked_of_plain plain
      have here : valueEntry line (String.ofList (shorthandKey m.1))
          (Token.scan (quote :: (m.2 ++ [quote]))) =
          .ok (some (.fixed (String.ofList (shorthandKey m.1)) (.text (String.ofList m.2)))) := by
        rw [scan_quoted isQuote (quotedLength_plain isQuote ordinary), valueEntry, tokenEntry]
        simp only [withoutQuotes_quoted, unmarked, Bool.and_false, literal?,
          unescape_plain ordinary]
        rcases isQuote with rfl | rfl <;> rfl
      rw [shorthandPairs, List.map_cons, entries_cons, here, ← shorthandPairs, ih others]
      rfl

end

end Tag

def Compile.tagLine (o : Options) (line : Nat) (text : List Char) (below : List (List Char)) :
    Except Error CompiledTag := do
  let (t, _) ← Tag.read line text below
  Compile.tag o t line

namespace Tag

open Attribute

def lineText (name : Option (List Char)) (marks : List (Char × List Char)) (rest : List Char) :
    List Char := opening name ++ (shorthandText marks ++ rest)

theorem isOpening_nameOf {name : Option (List Char)} (named : IsOpening name) :
    IsOpening (some (nameOf name)) := by
  rintro n ⟨⟩
  cases name with
  | none => exact ⟨nofun, List.all_eq_true.mp rfl⟩
  | some n => exact named n rfl

/-- All styles of attributes are alike: a tag has its shorthands and then the entries of its pairs,
and is read and compiled the same, in whichever style its attributes are written; and shorthands for
classes and ids are compiled as pairs in their order. -/
theorem read_anyStyle (line : Nat) (o : Options) {name : Option (List Char)}
    (named : IsOpening name) {marks : List (Char × List Char)}
    (formed : ∀ m ∈ marks, IsShorthand m) {pairs : List (List Char × List Char)}
    (paired : ∀ p ∈ pairs, IsPair p) {tail : List Char} {content : Option InlineContent}
    (ends : Ends tail content) (below : List (List Char)) (a b : Style) :
    Tag.read line (lineText name marks (a.write pairs ++ tail)) below =
      ((entries line pairs).bind fun found =>
        ended line name (shorthandEntries marks ++ found) tail content below) ∧
    Tag.read line (lineText name marks (a.write pairs ++ tail)) below =
      Tag.read line (lineText name marks (b.write pairs ++ tail)) below ∧
    Compile.tagLine o line (lineText name marks (a.write pairs ++ tail)) below =
      Compile.tagLine o line (lineText name marks (b.write pairs ++ tail)) below ∧
    ∀ quote, IsQuote quote →
      Compile.tagLine o line (lineText name marks tail) below =
        Compile.tagLine o line
          (lineText (some (nameOf name)) [] (a.write (shorthandPairs quote marks) ++ tail))
          below := by
  have read (s : Style) : Tag.read line (lineText name marks (s.write pairs ++ tail)) below =
      (entries line pairs).bind fun found =>
        ended line name (shorthandEntries marks ++ found) tail content below :=
    read_write line named formed paired ends s
  have same : Tag.read line (lineText name marks (a.write pairs ++ tail)) below =
      Tag.read line (lineText name marks (b.write pairs ++ tail)) below :=
    (read a).trans (read b).symm
  refine ⟨read a, same, ?_, fun quote isQuote => ?_⟩
  · rw [Compile.tagLine, Compile.tagLine, same]
  · have shorthands : Tag.read line (lineText name marks tail) below =
        Tag.read line
          (lineText (some (nameOf name)) [] (a.write (shorthandPairs quote marks) ++ tail))
          below := by
      rw [lineText, lineText, read_shorthands line named formed ends,
        read_write line (isOpening_nameOf named) (List.forall_mem_nil _)
          (isPair_shorthandPairs isQuote formed) ends a,
        entries_shorthandPairs line isQuote formed]
      rfl
    rw [Compile.tagLine, Compile.tagLine, shorthands]

def samplePairs : List (List Char × List Char) :=
  [("a-b".toList, "\"x y\"".toList), ("n".toList, "-12".toList), ("on".toList, "true".toList),
    ("m".toList, "f([x, ' )'])".toList)]

theorem isPair_samplePairs : ∀ p ∈ samplePairs, IsPair p := by
  have call : IsValue "f([x, ' )'])".toList :=
    { filled := by decide
      quoted := by
        rw [Token.Quoted]
        decide +kernel
      nested := by decide +kernel
      arrow := by decide }
  have number : IsInteger "-12".toList := ⟨"12".toList, by decide, List.all_eq_true.mp rfl, .inr rfl⟩
  have word : IsName "true".toList := ⟨'t', "rue".toList, rfl, rfl, List.all_eq_true.mp rfl⟩
  have first : IsName "a-b".toList := ⟨'a', "-b".toList, rfl, rfl, List.all_eq_true.mp rfl⟩
  have second : IsName ['n'] := ⟨'n', [], rfl, rfl, List.forall_mem_nil _⟩
  have third : IsName "on".toList := ⟨'o', "n".toList, rfl, rfl, List.all_eq_true.mp rfl⟩
  have last : IsName ['m'] := ⟨'m', [], rfl, rfl, List.forall_mem_nil _⟩
  rw [samplePairs]
  simp only [List.forall_mem_cons]
  exact ⟨⟨first, isValue_quoted (.inl rfl) rfl⟩, ⟨second, number.isValue⟩, ⟨third, word.isValue⟩,
    ⟨last, call⟩, List.forall_mem_nil _⟩

theorem read_anyStyle_sample :
    lineText (some "p".toList) [('.', "x".toList)] (Style.rocket.write samplePairs ++ " t".toList) =
      "%p.x\x7b:a-b => \"x y\", :n => -12, :on => true, :m => f([x, ' )'])\x7d t".toList ∧
    lineText (some "p".toList) [('.', "x".toList)] (Style.list.write samplePairs ++ " t".toList) =
      "%p.x(a-b=\"x y\" n=-12 on=true m=f([x, ' )'])) t".toList ∧
    Tag.read 1 (lineText (some "p".toList) [('.', "x".toList)]
        (Style.rocket.write samplePairs ++ " t".toList)) [] =
      Tag.read 1 (lineText (some "p".toList) [('.', "x".toList)]
        (Style.list.write samplePairs ++ " t".toList)) [] ∧
    Compile.tagLine .standard 1 (lineText (some "p".toList) [('.', "x".toList)] " t".toList) [] =
      Compile.tagLine .standard 1 (lineText (some "p".toList) []
        (Style.quotedColon.write (shorthandPairs '"' [('.', "x".toList)]) ++ " t".toList)) [] := by
  have named : IsOpening (some "p".toList) := by
    rintro n ⟨⟩
    exact ⟨nofun, List.all_eq_true.mp rfl⟩
  have formed : ∀ m ∈ [('.', "x".toList)], IsShorthand m :=
    List.forall_mem_singleton.mpr ⟨.inl rfl, nofun, List.all_eq_true.mp rfl⟩
  have ends : Ends " t".toList (some (.text "t")) := rfl
  have paired := isPair_samplePairs
  have hash := read_anyStyle 1 .standard named formed paired ends [] .rocket .list
  have shorthand := read_anyStyle 1 .standard named formed paired ends [] .quotedColon .list
  exact ⟨rfl, rfl, hash.2.1, shorthand.2.2.2 '"' (.inl rfl)⟩

end Tag

end Haml
