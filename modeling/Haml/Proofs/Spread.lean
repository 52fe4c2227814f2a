import Haml.Proofs.Arrival
import Haml.Proofs.Styles
import Mathlib.Data.List.DropRight
/-! Hashes over several lines: a tag line and the lines below that close its hash are read as the one
line that they make up together. -/

namespace Haml

namespace Tag

open Attribute

/-- Whether every list that a text starts with is closed in it. -/
inductive Shut : List Char → Prop
  | none {cs : List Char} (hash : cs.head? ≠ some '{') (list : cs.head? ≠ some '(') : Shut cs
  | list {cs inner after : List Char} (closed : Token.bracketed cs = some (inner, after))
      (others : Shut after) : Shut cs

/-- Whether a text that starts with a bracket is closed by the lines of `region`, and not before all
of them have joined it. -/
structure ClosedBy (region : List (List Char)) (cs inner after : List Char) : Prop where
  unclosed : ∀ j < region.length, Token.bracketed (joined cs (region.take j)) = none
  closed : Token.bracketed (joined cs region) = some (inner, after)

theorem joined_nil (cs : List Char) : joined cs [] = cs := List.append_nil cs

theorem joined_cons (cs next : List Char) (region : List (List Char)) :
    joined cs (next :: region) = joined (cs ++ ' ' :: Text.trim next) region := by
  simp [joined]

theorem joined_append (before cs : List Char) (region : List (List Char)) :
    joined (before ++ cs) region = before ++ joined cs region :=
  List.append_assoc ..

theorem ClosedBy.tail {next cs inner after : List Char} {region : List (List Char)}
    (closed : ClosedBy (next :: region) cs inner after) :
    Token.bracketed cs = none ∧ ClosedBy region (cs ++ ' ' :: Text.trim next) inner after := by
  refine ⟨?_, fun j lt => ?_, ?_⟩
  · have first := closed.unclosed 0 (Nat.succ_pos _)
    rwa [List.take_zero, joined_nil] at first
  · have later := closed.unclosed (j + 1) (Nat.succ_lt_succ lt)
    rwa [List.take_succ_cons, joined_cons] at later
  · rw [← joined_cons]
    exact closed.closed

/-- The lines that close a hash join its text, and those below them are left. -/
theorem takeBracketed_closedBy {text cs inner after : List Char} {region : List (List Char)}
    (closed : ClosedBy region cs inner after) (below : List (List Char)) :
    takeBracketed text cs (region ++ below) = some (inner, ⟨joined text region, after, below⟩) := by
  induction region generalizing text cs with
  | nil =>
      have whole := closed.closed
      rw [joined_nil] at whole
      rw [joined_nil]
      exact takeBracketed_below whole below
  | cons next region ih =>
      obtain ⟨first, rest⟩ := closed.tail
      rw [List.cons_append, takeBracketed, first, joined_cons]
      exact ih rest

section

variable {line : Nat}

theorem takeLists_brace {r after : Reading} {inner : List Char} (brace : r.rest.head? = some '{')
    (cut : takeBracketed r.text r.rest r.below = some (inner, after)) :
    takeLists line r = do
      let entries ← ofHash line inner
      let (more, last) ← takeLists line after
      return (entries ++ more, last) := by
  rw [takeLists]
  split
  · split
    · next unbalanced =>
        rw [cut] at unbalanced
        cases unbalanced
    · next inner' after' here =>
        cases cut.symm.trans here
        rfl
  · next paren => cases brace.symm.trans paren
  · next other _ => exact absurd brace other

theorem takeLists_paren {r after : Reading} {inner : List Char} (paren : r.rest.head? = some '(')
    (cut : takeBracketed r.text r.rest [] = some (inner, after)) :
    takeLists line r = do
      let entries ← ofList line inner
      let (more, last) ← takeLists line { after with below := r.below }
      return (entries ++ more, last) := by
  rw [takeLists]
  split
  · next brace => cases paren.symm.trans brace
  · split
    · next unbalanced =>
        rw [cut] at unbalanced
        cases unbalanced
    · next inner' after' here =>
        cases cut.symm.trans here
        rfl
  · next _ other => exact absurd paren other

theorem takeLists_none {r : Reading} (hash : r.rest.head? ≠ some '{')
    (list : r.rest.head? ≠ some '(') : takeLists line r = .ok ([], r) := by
  rw [takeLists]
  split
  · next brace => exact absurd brace hash
  · next paren => exact absurd paren list
  · rfl

theorem takeLists_shut {cs : List Char} (shut : Shut cs) (text : List Char)
    (below : List (List Char)) :
    takeLists line ⟨text, cs, below⟩ =
      (takeLists line ⟨text, cs, []⟩).map fun p => (p.1, { p.2 with below := below }) := by
  induction shut with
  | none hash list =>
      rw [takeLists_none hash list, takeLists_none hash list]
      rfl
  | @list cs inner after closed _ ih =>
      have cut (below : List (List Char)) :
          takeBracketed text cs below = some (inner, ⟨text, after, below⟩) :=
        takeBracketed_below closed below
      have both (x : Except Error (List AttributeEntry)) :
          (do let entries ← x
              let (more, last) ← takeLists line ⟨text, after, below⟩
              return (entries ++ more, last)) =
            (do let entries ← x
                let (more, last) ← takeLists line ⟨text, after, []⟩
                return (entries ++ more, last) : Except Error _).map
              fun p => (p.1, { p.2 with below := below }) := by
        rw [ih]
        cases x with
        | error e => rfl
        | ok entries => cases takeLists line ⟨text, after, []⟩ <;> rfl
      by_cases brace : cs.head? = some '{'
      · rw [takeLists_brace (r := ⟨text, cs, below⟩) brace (cut below),
          takeLists_brace (r := ⟨text, cs, []⟩) brace (cut [])]
        exact both _
      · by_cases paren : cs.head? = some '('
        · rw [takeLists_paren (r := ⟨text, cs, below⟩) paren (cut []),
            takeLists_paren (r := ⟨text, cs, []⟩) paren (cut [])]
          exact both _
        · rw [takeLists_none brace paren, takeLists_none brace paren]
          rfl

variable {name : Option (List Char)} {marks : List (Char × List Char)}

theorem read_lineText_congr (named : IsOpening name) (formed : ∀ m ∈ marks, IsShorthand m)
    {cs ds : List Char} (known : ∀ c ∈ cs.head?, c ∈ starts) (also : ∀ d ∈ ds.head?, d ∈ starts)
    {lines others : List (List Char)} (f : List (List Char) → List (List Char))
    (same : takeLists line ⟨lineText name marks cs, cs, lines⟩ =
      (takeLists line ⟨lineText name marks ds, ds, others⟩).map fun p =>
        (p.1, { p.2 with below := f p.2.below })) :
    Tag.read line (lineText name marks cs) lines =
      (Tag.read line (lineText name marks ds) others).map fun p => (p.1, f p.2) := by
  obtain ⟨first, second⟩ := take_opening line named formed known
  obtain ⟨firstAlso, secondAlso⟩ := take_opening line named formed also
  rw [Tag.read, Tag.read, lineText, lineText, first, firstAlso]
  simp only [bind, Except.bind]
  rw [second, secondAlso]
  dsimp only
  rw [← lineText, ← lineText, same]
  cases takeLists line ⟨lineText name marks ds, ds, others⟩ with
  | error e => rfl
  | ok p =>
      obtain ⟨entries, r⟩ := p
      simp only [Except.map]
      split
      · split <;> rfl
      · rfl

/-- Whatever stands behind its name and shorthands, a tag line is one by how it starts. -/
theorem header_lineText (named : IsOpening name) (formed : ∀ m ∈ marks, IsShorthand m)
    (marked : name = none → marks ≠ []) (cs : List Char) (unit : Option Indent) (depth : Nat)
    (below : List (List Char)) :
    Header.read unit ⟨line, depth, lineText name marks cs⟩ below =
      (fun p => ⟨.tag p.1, below.length - p.2.length, unit⟩) <$>
        Tag.read line (lineText name marks cs) below := by
  have sigil : (Line.mk line depth (lineText name marks cs)).sigil ∈
      [Sigil.tag, .cssClass, .cssId] := by
    cases name with
    | some n => simp [Line.sigil, lineText, opening, Sigil.classify]
    | none =>
        cases marks with
        | nil => exact absurd rfl (marked rfl)
        | cons m marks =>
            obtain ⟨mark, value⟩ := m
            obtain ⟨dot | hash, filled, plain⟩ := formed _ (List.mem_cons_self ..)
            · simp only at dot
              simp [Line.sigil, lineText, opening, shorthandText, dot, Sigil.classify]
            · obtain ⟨c, value, rfl⟩ := List.exists_cons_of_ne_nil filled
              have other : c ≠ '{' := by
                rintro rfl
                cases plain '{' (List.mem_cons_self ..)
              simp only at hash
              simp [Line.sigil, lineText, opening, shorthandText, hash, Sigil.classify, other]
  simp only [List.mem_cons, List.not_mem_nil, or_false] at sigil
  rw [Header.read]
  rcases sigil with tag | dot | hash
  · rw [tag]
    cases Tag.read line (lineText name marks cs) below <;> rfl
  · rw [dot]
    cases Tag.read line (lineText name marks cs) below <;> rfl
  · rw [hash]
    cases Tag.read line (lineText name marks cs) below <;> rfl

end

end Tag

theorem Line.read_eq (unit : Option Indent) (number : Nat) (raw : List Char) :
    Line.read unit number raw = (fun m => (⟨number, m.1, Line.content raw⟩, m.2)) <$>
      Indent.measure unit (Line.lead raw) number := by
  rw [Line.read, ← Line.lead]
  cases Indent.measure unit (Line.lead raw) number <;> rfl

namespace Document

/-- Nodes whose headers are read alike, at the same indentation, are read alike. -/
theorem readNode_congr {raw raw' : List Char} (lead : Line.lead raw = Line.lead raw')
    {number : Nat} {lines lines' : List (List Char)} {f : Header → Header}
    (same : ∀ unit depth, Header.read unit ⟨number, depth, Line.content raw⟩ lines =
      f <$> Header.read unit ⟨number, depth, Line.content raw'⟩ lines')
    (unit : Option Indent) (o : Outline) :
    readNode unit o number raw lines =
      (fun p => ({ p.1 with text := Line.content raw }, p.2.1, f p.2.2)) <$>
        readNode unit o number raw' lines' := by
  rw [readNode, readNode, Line.read_eq, Line.read_eq, lead]
  cases Indent.measure unit (Line.lead raw') number with
  | error e => rfl
  | ok measured =>
      obtain ⟨depth, settled⟩ := measured
      simp only [Functor.map, Except.map, bind, Except.bind, pure, Except.pure]
      cases o.descend depth number with
      | error e => rfl
      | ok next =>
          simp only [same]
          cases Header.read settled ⟨number, depth, Line.content raw'⟩ lines' <;> rfl

theorem not_allBlank_of_content {raw : List Char} (filled : Line.content raw ≠ []) :
    Text.allBlank raw = false := by
  refine Bool.eq_false_iff.mpr fun blank => filled ?_
  have all := List.all_eq_true.mp blank
  refine List.rdropWhile_eq_nil_iff.mpr fun c member => ?_
  exact all c ((List.dropWhile_sublist _).mem member)

section

open Tag (lineText joined ClosedBy Shut)

variable {name : Option (List Char)} {marks : List (Char × List Char)} {cs inner after : List Char}
  {region : List (List Char)}

/-- A tag line that takes the lines of `region` is read in a document as one that says the same alone,
and the document goes on below them. -/
theorem readLines_lineText (region : List (List Char)) (named : Tag.IsOpening name)
    (formed : ∀ m ∈ marks, Tag.IsShorthand m) (marked : name = none → marks ≠ [])
    {number : Nat} {ds : List Char} {below : List (List Char)}
    (same : Tag.read number (lineText name marks cs) (region ++ below) =
      (fun p => (p.1, below)) <$> Tag.read number (lineText name marks ds) [])
    {raw raw' : List Char} (first : Line.content raw = lineText name marks cs)
    (alone : Line.content raw' = lineText name marks ds) (lead : Line.lead raw = Line.lead raw')
    (unit : Option Indent) (o : Outline) :
    readLines unit o number 0 (raw :: (region ++ below)) =
      readNode unit o number raw' [] >>= fun p =>
        readLines p.2.2.unit (p.2.1.push ⟨p.2.2.kind, number, []⟩) (number + 1 + region.length) 0
          below := by
  have filled : lineText name marks cs ≠ [] := by
    cases name with
    | some n => exact List.cons_ne_nil _ _
    | none =>
        obtain ⟨m, others, rfl⟩ := List.exists_cons_of_ne_nil (marked rfl)
        exact List.cons_ne_nil _ _
  have headers (unit : Option Indent) (depth : Nat) :
      Header.read unit ⟨number, depth, Line.content raw⟩ (region ++ below) =
        (fun header => { header with taken := region.length }) <$>
          Header.read unit ⟨number, depth, Line.content raw'⟩ [] := by
    rw [first, alone, Tag.header_lineText named formed marked, same,
      Tag.header_lineText named formed marked]
    cases Tag.read number (lineText name marks ds) [] with
    | error e => rfl
    | ok p => simp [Functor.map, Except.map]
  rw [readLines_node (not_allBlank_of_content (first ▸ filled)), readNode_congr lead headers]
  cases readNode unit o number raw' [] with
  | error e => rfl
  | ok p => simp [Functor.map, Except.map, bind, Except.bind]

/-- A tag line with a hash behind its name and shorthands that the lines below close, and no fewer of
them do, is read as the one line that they make up together: the tag is the same, or the failure,
which names its line. If the lists behind the hash are closed where they stand, these lines are taken
and no others: a document goes on below them with the node, the open nodes and the unit that it has
below the one line. -/
theorem readLines_spread (named : Tag.IsOpening name) (formed : ∀ m ∈ marks, Tag.IsShorthand m)
    (marked : name = none → marks ≠ []) (closed : ClosedBy region ('{' :: cs) inner after)
    (number : Nat) (below : List (List Char)) :
    let text := lineText name marks ('{' :: cs)
    let whole := joined text region
    Tag.read number text (region ++ below) = Tag.read number whole below ∧
    Fails (Error.OfTag number) (Tag.read number whole below) ∧
    (Shut after →
      Tag.read number text (region ++ below) =
        (fun p => (p.1, below)) <$> Tag.read number whole [] ∧
      ∀ (unit : Option Indent) (o : Outline) (raw raw' : List Char),
        Line.content raw = text → Line.content raw' = whole → Line.lead raw = Line.lead raw' →
        let goOn (next : Nat) (p : Line × Outline × Header) :=
          readLines p.2.2.unit (p.2.1.push ⟨p.2.2.kind, number, []⟩) next 0 below
        readLines unit o number 0 (raw :: (region ++ below)) =
          readNode unit o number raw' [] >>= goOn (number + 1 + region.length) ∧
        readLines unit o number 0 (raw' :: below) =
          readNode unit o number raw' [] >>= goOn (number + 1)) := by
  intro text whole
  have spread : whole = lineText name marks ('{' :: joined cs region) := by
    simp only [whole, text, lineText, Tag.joined_append]
    rfl
  have brace (cs : List Char) : ∀ c ∈ ('{' :: cs).head?, c ∈ Tag.starts := by
    rintro c ⟨⟩
    decide
  have same : Tag.read number text (region ++ below) = Tag.read number whole below := by
    have lists : Tag.takeLists number ⟨text, '{' :: cs, region ++ below⟩ =
        Tag.takeLists number ⟨whole, '{' :: joined cs region, below⟩ := by
      rw [Tag.takeLists_brace (r := ⟨text, '{' :: cs, _⟩) rfl
          (Tag.takeBracketed_closedBy closed below),
        Tag.takeLists_brace (r := ⟨whole, '{' :: joined cs region, _⟩) rfl
          (Tag.takeBracketed_below closed.closed below)]
    rw [spread] at lists ⊢
    have read := Tag.read_lineText_congr named formed (brace cs) (brace (joined cs region)) id
      (lists.trans (congrFun Except.map_id _).symm)
    exact read.trans (congrFun Except.map_id _)
  refine ⟨same, Tag.read_fails number whole below, fun shut => ?_⟩
  have alone : Tag.read number whole below =
      (fun p => (p.1, below)) <$> Tag.read number whole [] := by
    rw [spread]
    exact Tag.read_lineText_congr named formed (brace _) (brace _) (fun _ => below)
      (Tag.takeLists_shut (.list closed.closed shut) _ below)
  refine ⟨same.trans alone, fun unit o raw raw' first one lead => ?_⟩
  rw [spread] at one alone
  constructor
  · refine readLines_lineText region named formed marked ?_ first one lead unit o
    rw [← spread]
    exact same.trans (spread ▸ alone)
  · exact readLines_lineText [] named formed marked alone one one rfl unit o

/-- A blank line and one that goes on with a quoted text are among those that close the hash. -/
theorem readLines_spread_quoted :
    let hash := ":a => '\x7d".toList
    let region := ["".toList, "  \tb', :c => [1,".toList, "\t]\x7d(d='2') t".toList]
    let below := ["  %b".toList]
    let text := lineText (some ['p']) [('.', ['x'])] ('{' :: hash)
    let whole := joined text region
    let goOn (next : Nat) (p : Line × Outline × Header) :=
      readLines p.2.2.unit (p.2.1.push ⟨p.2.2.kind, 1, []⟩) next 0 below
    ClosedBy region ('{' :: hash) ":a => '\x7d  b', :c => [1, ]".toList "(d='2') t".toList ∧
      Shut "(d='2') t".toList ∧ whole = "%p.x\x7b:a => '\x7d  b', :c => [1, ]\x7d(d='2') t".toList ∧
      Tag.read 1 text (region ++ below) = (fun p => (p.1, below)) <$> Tag.read 1 whole [] ∧
      readLines none .empty 1 0 (text :: (region ++ below)) =
        readNode none .empty 1 whole [] >>= goOn 5 ∧
      readLines none .empty 1 0 (whole :: below) =
        readNode none .empty 1 whole [] >>= goOn 2 := by
  intro hash region below text whole goOn
  have named : Tag.IsOpening (some ['p']) := by
    rintro n ⟨⟩
    exact ⟨nofun, List.all_eq_true.mp rfl⟩
  have formed : ∀ m ∈ [('.', ['x'])], Tag.IsShorthand m :=
    List.forall_mem_singleton.mpr ⟨.inl rfl, nofun, List.all_eq_true.mp rfl⟩
  have closed : ClosedBy region ('{' :: hash) ":a => '\x7d  b', :c => [1, ]".toList
      "(d='2') t".toList := ⟨by decide +kernel, by decide +kernel⟩
  have list : Attribute.Token.bracketed "(d='2') t".toList = some ("d='2'".toList, " t".toList) := by
    decide +kernel
  have shut : Shut "(d='2') t".toList := .list list (.none (by decide) (by decide))
  obtain ⟨-, -, taken⟩ := readLines_spread named formed nofun closed 1 below
  obtain ⟨tag, document⟩ := taken shut
  obtain ⟨many, one⟩ := document none .empty text whole (by decide +kernel) (by decide +kernel)
    (by decide +kernel)
  exact ⟨closed, shut, by decide +kernel, tag, many, one⟩

end

end Document

end Haml
