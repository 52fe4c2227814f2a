import Haml.Proofs.Outline
import Haml.Proofs.Structure
/-! Arrival: the states that the reading of a document passes through, from line to line. -/

namespace Haml

namespace Document

/-- What is read at the start of a line that is not blank: its node, and the open nodes above. -/
def readNode (unit : Option Indent) (o : Outline) (number : Nat) (raw : List Char)
    (below : List (List Char)) : Except Error (Line × Outline × Header) := do
  let (line, unit) ← Line.read unit number raw
  let outline ← o.descend line.depth number
  let header ← Header.read unit line below
  return (line, outline, header)

/-- The reading of the lines `start` arrives at the lines `rest`, the first of which has the number
`number`, with the unit and the outline that it has by then. -/
inductive Arrives (preset : Option Indent) (start : List (List Char)) :
    Option Indent → Outline → Nat → List (List Char) → Prop
  | start : Arrives preset start preset .empty 1 start
  | blank {unit : Option Indent} {o : Outline} {number : Nat} {raw : List Char}
      {below : List (List Char)} :
      Arrives preset start unit o number (raw :: below) → Text.allBlank raw = true →
      Arrives preset start unit o (number + 1) below
  | node {unit : Option Indent} {o next : Outline} {number : Nat} {raw : List Char}
      {below : List (List Char)} {line : Line} {header : Header} :
      Arrives preset start unit o number (raw :: below) → Text.allBlank raw = false →
      readNode unit o number raw below = .ok (line, next, header) →
      Arrives preset start header.unit (next.push ⟨header.kind, number, []⟩)
        (number + 1 + header.taken) (below.drop header.taken)

theorem readLines_taken (unit : Option Indent) (o : Outline) (number taken : Nat)
    (lines : List (List Char)) :
    readLines unit o number taken lines = readLines unit o (number + taken) 0 (lines.drop taken) := by
  induction taken generalizing number lines with
  | zero => rfl
  | succ taken ih =>
      cases lines with
      | nil => rfl
      | cons raw below =>
          rw [readLines, ih, List.drop_succ_cons, Nat.add_right_comm, Nat.add_assoc]

theorem readLines_blank {unit : Option Indent} {o : Outline} {number : Nat} {raw : List Char}
    {below : List (List Char)} (blank : Text.allBlank raw = true) :
    readLines unit o number 0 (raw :: below) = readLines unit o (number + 1) 0 below := by
  rw [readLines, if_pos blank]

theorem readLines_blanks {unit : Option Indent} {o : Outline} {number : Nat}
    {blanks below : List (List Char)} (blank : ∀ raw ∈ blanks, Text.allBlank raw = true) :
    readLines unit o number 0 (blanks ++ below) =
      readLines unit o (number + blanks.length) 0 below := by
  induction blanks generalizing number with
  | nil => rfl
  | cons raw blanks ih =>
      obtain ⟨here, rest⟩ := List.forall_mem_cons.mp blank
      rw [List.cons_append, readLines_blank here, ih rest, List.length_cons,
        Nat.add_right_comm, Nat.add_assoc]

theorem readLines_taken_blank {unit : Option Indent} {o : Outline} {number taken : Nat}
    {lines : List (List Char)} (blank : ∀ raw ∈ lines.take taken, Text.allBlank raw = true) :
    readLines unit o number taken lines = readLines unit o number 0 lines := by
  induction taken generalizing number lines with
  | zero => rfl
  | succ taken ih =>
      cases lines with
      | nil => rfl
      | cons raw below =>
          obtain ⟨here, rest⟩ := List.forall_mem_cons.mp blank
          rw [readLines, ih rest, readLines_blank here]

theorem readLines_node {unit : Option Indent} {o : Outline} {number : Nat} {raw : List Char}
    {below : List (List Char)} (text : Text.allBlank raw = false) :
    readLines unit o number 0 (raw :: below) =
      readNode unit o number raw below >>= fun p =>
        readLines p.2.2.unit (p.2.1.push ⟨p.2.2.kind, number, []⟩) (number + 1 + p.2.2.taken) 0
          (below.drop p.2.2.taken) := by
  rw [readLines, text, if_neg Bool.false_ne_true, readNode]
  cases Line.read unit number raw with
  | error e => rfl
  | ok read =>
      cases descends : o.descend read.1.depth number with
      | error e => simp only [bind, Except.bind, descends]
      | ok next =>
          cases heads : Header.read read.2 read.1 below with
          | error e => simp only [bind, Except.bind, descends, heads]
          | ok header =>
              simp only [bind, Except.bind, pure, Except.pure, descends, heads]
              exact readLines_taken _ _ _ _ _

section Arrival

variable {preset unit : Option Indent} {start rest : List (List Char)} {o : Outline} {number : Nat}

/-- Reading goes on from where it has arrived. -/
theorem Arrives.readLines_eq (arrives : Arrives preset start unit o number rest) :
    readLines preset .empty 1 0 start = readLines unit o number 0 rest := by
  induction arrives with
  | start => rfl
  | blank _ blank ih => rw [ih, readLines_blank blank]
  | node _ text read ih =>
      rw [ih, readLines_node text, read]
      rfl

theorem Arrives.subset (arrives : Arrives preset start unit o number rest) :
    ∀ raw ∈ rest, raw ∈ start := by
  induction arrives with
  | start => exact fun raw member => member
  | blank _ _ ih => exact fun raw member => ih raw (List.mem_cons_of_mem _ member)
  | node _ _ _ ih =>
      exact fun raw member => ih raw (List.mem_cons_of_mem _ (List.mem_of_mem_drop member))

theorem Arrives.blanks (arrives : Arrives preset start unit o number rest)
    {blanks below : List (List Char)} (whole : rest = blanks ++ below)
    (blank : ∀ raw ∈ blanks, Text.allBlank raw = true) :
    Arrives preset start unit o (number + blanks.length) below := by
  induction blanks generalizing rest number with
  | nil =>
      rw [List.nil_append] at whole
      rw [← whole]
      exact arrives
  | cons raw blanks ih =>
      subst whole
      have here := blank raw (List.mem_cons_self ..)
      have next := ih (arrives.blank here) rfl fun r member =>
        blank r (List.mem_cons_of_mem raw member)
      rw [List.length_cons, Nat.add_comm blanks.length, ← Nat.add_assoc]
      exact next

/-- A document that cannot be read is refused at a line that its reading arrives at. -/
theorem Arrives.exists_of_error {e : Error} (arrives : Arrives preset start unit o number rest)
    (fails : readLines unit o number 0 rest = .error e) :
    ∃ unit' o' number' raw below, Arrives preset start unit' o' number' (raw :: below) ∧
      Text.allBlank raw = false ∧ readNode unit' o' number' raw below = .error e := by
  generalize count : rest.length = length
  induction length using Nat.strong_induction_on generalizing unit o number rest with
  | _ length ih =>
      cases rest with
      | nil => cases fails
      | cons raw below =>
          have shorter : below.length < length := by
            rw [← count]
            exact Nat.lt_succ_self _
          cases blank : Text.allBlank raw with
          | true =>
              rw [readLines_blank blank] at fails
              exact ih below.length shorter (arrives.blank blank) fails rfl
          | false =>
              rw [readLines_node blank] at fails
              cases read : readNode unit o number raw below with
              | error e' =>
                  rw [read] at fails
                  cases fails
                  exact ⟨unit, o, number, raw, below, arrives, blank, read⟩
              | ok p =>
                  rw [read] at fails
                  refine ih _ ?_ (arrives.node blank read) fails rfl
                  rw [List.length_drop]
                  omega

end Arrival

theorem readNode_ok {unit : Option Indent} {o next : Outline} {number : Nat} {raw : List Char}
    {below : List (List Char)} {line : Line} {header : Header}
    (read : readNode unit o number raw below = .ok (line, next, header)) :
    ∃ settled, Line.read unit number raw = .ok (line, settled) ∧
      o.descend line.depth number = .ok next ∧ Header.read settled line below = .ok header := by
  obtain ⟨⟨line', settled⟩, first, read⟩ := bind_ok read
  obtain ⟨next', descends, read⟩ := bind_ok read
  obtain ⟨header', heads, read⟩ := bind_ok read
  cases read
  exact ⟨settled, first, descends, heads⟩

section Invariant

variable {preset unit : Option Indent} {start rest : List (List Char)} {o : Outline} {number : Nat}

theorem Arrives.sound (wide : Indent.Wide preset)
    (arrives : Arrives preset start unit o number rest) : Indent.Wide unit ∧ o.WellNested := by
  induction arrives with
  | start => exact ⟨wide, nofun, nofun, nofun⟩
  | blank _ _ ih => exact ih
  | @node _ _ _ number _ _ _ header _ _ read ih =>
      obtain ⟨wideHere, nested⟩ := ih
      obtain ⟨settled, first, descends, heads⟩ := readNode_ok read
      obtain ⟨content, -, wideFirst, measured⟩ := Line.read_ok wideHere first
      obtain ⟨-, wideHeader, -, -⟩ := Header.read_ok wideFirst content measured heads
      obtain ⟨-, -, nestedNext, allowed⟩ := Outline.descend_ok nested descends
      exact ⟨wideHeader, nestedNext.push allowed header.kind number⟩

/-- Above a line with open nodes stands the line of the latest of them, with what that node takes
and blank lines in between. -/
theorem Arrives.latest (arrives : Arrives preset start unit o number rest) (opened : o.path ≠ []) :
    ∃ unit' o' number' raw below line next header blanks,
      Arrives preset start unit' o' number' (raw :: below) ∧ Text.allBlank raw = false ∧
      readNode unit' o' number' raw below = .ok (line, next, header) ∧
      unit = header.unit ∧ o = next.push ⟨header.kind, number', []⟩ ∧
      below.drop header.taken = blanks ++ rest ∧
      (∀ r ∈ blanks, Text.allBlank r = true) ∧
      number = number' + 1 + header.taken + blanks.length := by
  induction arrives with
  | start => exact absurd rfl opened
  | @blank _ _ _ skipped _ _ blank ih =>
      obtain ⟨unit', o', number', raw, below, line, next, header, blanks, before, text, read,
        unit, outline, left, each, count⟩ := ih opened
      refine ⟨unit', o', number', raw, below, line, next, header, blanks ++ [skipped], before, text,
        read, unit, outline, ?_, ?_, ?_⟩
      · rw [left, List.append_assoc]
        rfl
      · intro r member
        rcases List.mem_append.mp member with earlier | last
        · exact each r earlier
        · obtain rfl := List.mem_singleton.mp last
          exact blank
      · rw [count, List.length_append, List.length_singleton, Nat.add_assoc _ blanks.length]
  | @node unit' o' next number' raw below line header before text read _ =>
      exact ⟨unit', o', number', raw, below, line, next, header, [], before, text, read, rfl, rfl,
        rfl, nofun, rfl⟩

end Invariant

end Document

end Haml
