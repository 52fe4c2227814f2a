import Haml.Proofs.Offset.Slice
import Haml.Proofs.Region
import Mathlib.Data.List.DropRight
/-! Lines by offsets: a reader keeps the index of the next line, and cuts the leading white space
off at the difference of two lengths. -/

namespace Haml.Offset

/-- A reader of lines: all of them, the index of the next one, and the unit of the document so
far. -/
structure Lexer where
  lines : List (List Char)
  cursor : Nat
  unit : Option Indent

def measure (unit : Option Indent) (lead : List Char) (line : Nat) : Run (Nat × Option Indent) :=
  if lead.isEmpty then return (0, unit)
  else do
    let tabs := lead.countP (· == '\t')
    let count ← sub (byteLength lead) tabs
    if 0 < tabs && 0 < count then throw (.mixedIndentation line)
    else
      let found := if 0 < tabs then Indent.tab else .spaces count
      match unit, found with
      | none, .tab => return (tabs, some .tab)
      | none, .spaces n => return (1, some (.spaces n))
      | some .tab, .tab => return (tabs, some .tab)
      | some (.spaces width), .spaces n =>
          let rest ← mod n width
          if rest = 0 then
            let depth ← div n width
            return (depth, unit)
          else throw (.illegalIndentation line (.notMultiple n width))
      | some expected, found => throw (.illegalIndentation line (.mismatch found expected))

def indent (raw : List Char) : Option Nat :=
  sub (byteLength raw) (byteLength (raw.dropWhile Text.isIndent))

def lead (raw : List Char) : Option (List Char) := do
  let width ← indent raw
  cut raw 0 width

def width (bound : Nat) (unit : Option Indent) (depth : Nat) : Option Nat :=
  match unit with
  | some .tab => some depth
  | some (.spaces n) => mul bound depth n
  | none => some 0

namespace Lexer

/-- The next line that is not blank, classified before the white space after it is dropped; none at
the end. -/
def nextLine (l : Lexer) : Run (Option (Line × Sigil) × Lexer) :=
  match l.lines[l.cursor]? with
  | none => return (none, l)
  | some raw =>
      if Text.allBlank raw then { l with cursor := l.cursor + 1 } |>.nextLine
      else do
        let text := raw.dropWhile Text.isIndent
        let lead ← lead raw
        let (depth, unit) ← measure l.unit lead (l.cursor + 1)
        let line : Line := ⟨l.cursor + 1, depth, Text.trimEnd text⟩
        return (some (line, .classify text), ⟨l.lines, l.cursor + 1, unit⟩)
partial_fixpoint

def nextRaw (l : Lexer) : Option (List Char × Lexer) :=
  l.lines[l.cursor]?.map fun raw => (Text.trim raw, { l with cursor := l.cursor + 1 })

def takeBlock (l : Lexer) (depth : Nat) : Run (List (List Char) × Lexer) := do
  let below ← rangeFrom l.lines l.cursor
  match below.findIdx? fun raw => !Text.allBlank raw with
  | none => return ([], l)
  | some offset =>
      let first := l.cursor + offset
      let raw ← (item l.lines first : Option (List Char))
      let lead ← lead raw
      if lead.isEmpty then return ([], l)
      else
        let (measured, unit) ← measure l.unit lead (first + 1)
        if measured ≤ depth then return ([], l)
        else if depth + 1 < measured then
          let levels ← sub measured depth
          throw (.inconsistentIndentation (first + 1) (.levels levels))
        else
          let block := Line.blockLines lead (l.lines.drop l.cursor)
          return (Line.dropBlankEnd block, ⟨l.lines, l.cursor + block.length, unit⟩)

def skipCount (width : Nat) : List (List Char) → Option Nat
  | [] => some 0
  | raw :: below => do
      let indent ← indent raw
      if !(raw.dropWhile Text.isIndent).isEmpty && indent ≤ width then return 0
      else
        let count ← skipCount width below
        return count + 1

def skipBlock (bound : Nat) (l : Lexer) (depth : Nat) : Option Lexer := do
  let width ← width bound l.unit depth
  let count ← skipCount width (l.lines.drop l.cursor)
  return { l with cursor := l.cursor + count }

end Lexer

section Leads

variable {unit : Option Indent} {raw cs : List Char}

theorem utf8Size_of_isIndent {c : Char} (indent : Text.isIndent c = true) : c.utf8Size = 1 := by
  simp only [Text.isIndent, Bool.or_eq_true, beq_iff_eq] at indent
  rcases indent with rfl | rfl
  · rfl
  · rfl

theorem byteLength_lead (raw : List Char) :
    byteLength (Line.lead raw) = (Line.lead raw).length := by
  apply byteLength_eq_length
  intro c member
  exact utf8Size_of_isIndent (Line.isIndent_of_mem_lead c member)

theorem indent_eq (raw : List Char) : indent raw = some (Line.lead raw).length := by
  apply sub_eq
  have whole := congrArg byteLength
    (List.takeWhile_append_dropWhile (p := Text.isIndent) (l := raw))
  rw [byteLength_append, ← Line.lead, byteLength_lead] at whole
  omega

theorem lead_eq (raw : List Char) : lead raw = some (Line.lead raw) := by
  rw [lead, indent_eq]
  apply cut_front (raw.dropWhile Text.isIndent)
  · exact List.takeWhile_append_dropWhile.symm
  · rw [byteLength_lead]

theorem measure_agrees (wide : Indent.Wide unit) (raw : List Char) (line : Nat) :
    Agrees Eq (measure unit (Line.lead raw) line) (Indent.measure unit (Line.lead raw) line) := by
  have tabs := List.countP_le_length (p := (· == '\t')) (l := Line.lead raw)
  have count : sub (byteLength (Line.lead raw)) ((Line.lead raw).countP (· == '\t')) =
      some ((Line.lead raw).length - (Line.lead raw).countP (· == '\t')) := by
    apply sub_eq
    rw [byteLength_lead]
    omega
  unfold measure Indent.measure
  dsimp only
  split
  · exact .ok rfl
  · refine .step count ?_
    split
    · exact .error _
    · generalize (if 0 < (Line.lead raw).countP (· == '\t') then Indent.tab else
        .spaces ((Line.lead raw).length - (Line.lead raw).countP (· == '\t'))) = found
      match unit, wide, found with
      | none, _, .tab => exact .ok rfl
      | none, _, .spaces n => exact .ok rfl
      | some .tab, _, .tab => exact .ok rfl
      | some .tab, _, .spaces n => exact .error _
      | some (.spaces width), _, .tab => exact .error _
      | some (.spaces width), wide, .spaces n =>
          have positive := wide width rfl
          have remainder : mod n width = some (n % width) := if_neg (Nat.ne_of_gt positive)
          have quotient : div n width = some (n / width) := if_neg (Nat.ne_of_gt positive)
          refine .step remainder ?_
          dsimp only
          split
          · exact .step quotient (.ok rfl)
          · exact .error _

theorem width_eq {bound depth : Nat} (fits : Indent.width unit depth ≤ bound) :
    width bound unit depth = some (Indent.width unit depth) := by
  match unit, fits with
  | none, _ => rfl
  | some .tab, _ => rfl
  | some (.spaces n), fits => exact if_pos fits

end Leads

section Sigils

variable {cs blanks : List Char}

theorem exists_of_append {starts rest : List Char} (visible : starts.all (!Text.isBlank ·) = true)
    (blank : ∀ d ∈ blanks, Text.isBlank d = true) (whole : cs ++ blanks = starts ++ rest) :
    ∃ tail, cs = starts ++ tail := by
  induction starts generalizing cs with
  | nil => exact ⟨cs, rfl⟩
  | cons c starts ih =>
      simp only [List.all_cons, Bool.and_eq_true, Bool.not_eq_true'] at visible
      cases cs with
      | nil =>
          rw [List.nil_append] at whole
          have other := blank c (by simp [whole])
          rw [visible.1] at other
          cases other
      | cons d tail =>
          obtain ⟨rfl, more⟩ := List.cons.inj whole
          obtain ⟨others, rfl⟩ := ih visible.2 more
          exact ⟨others, rfl⟩

theorem classify_append (blank : ∀ d ∈ blanks, Text.isBlank d = true) :
    Sigil.classify (cs ++ blanks) = Sigil.classify cs := by
  have other {text : List Char} (starts : List Char)
      (visible : starts.all (!Text.isBlank ·) = true) (not : ∀ tail, text = starts ++ tail → False)
      (rest : List Char) : text ++ blanks = starts ++ rest → False := by
    intro whole
    obtain ⟨tail, same⟩ := exists_of_append visible blank whole
    exact not tail same
  fun_cases Sigil.classify cs with
  | case5 rest not =>
      rw [List.cons_append, Sigil.classify]
      exact other ['#'] (by decide) not
  | case10 rest not =>
      rw [List.cons_append, Sigil.classify]
      exact other ['{'] (by decide) not
  | case14 =>
      rw [Sigil.classify]
      · exact other ['!', '!', '!'] (by decide) ‹_›
      · exact other ['!', '='] (by decide) ‹_›
      · exact other ['&', '='] (by decide) ‹_›
      · exact other ['-', '#'] (by decide) ‹_›
      · exact other ['-'] (by decide) ‹_›
      · exact other ['='] (by decide) ‹_›
      · exact other ['%'] (by decide) ‹_›
      · exact other ['.'] (by decide) ‹_›
      · exact other ['#', '{'] (by decide) ‹_›
      · exact other ['#'] (by decide) ‹_›
      · exact other ['/'] (by decide) ‹_›
      · exact other [':'] (by decide) ‹_›
      · exact other ['\\'] (by decide) ‹_›
  | _ => rfl

theorem classify_trimEnd (cs : List Char) :
    Sigil.classify (Text.trimEnd cs) = Sigil.classify cs := by
  have whole : Text.trimEnd cs ++ cs.rtakeWhile Text.isBlank = cs :=
    List.rdropWhile_append_rtakeWhile
  have blank : ∀ d ∈ cs.rtakeWhile Text.isBlank, Text.isBlank d = true := by
    intro d
    exact List.mem_rtakeWhile_imp
  rw [← classify_append blank, whole]

end Sigils

namespace Lexer

variable {l : Lexer} {raw : List Char}

theorem nextLine_end (absent : l.lines[l.cursor]? = none) : l.nextLine = return (.none, l) := by
  rw [nextLine, absent]

theorem nextLine_blank (next : l.lines[l.cursor]? = some raw) (blank : Text.allBlank raw = true) :
    l.nextLine = nextLine { l with cursor := l.cursor + 1 } := by
  rw [nextLine.eq_def l, next]
  exact if_pos blank

theorem nextLine_agrees (next : l.lines[l.cursor]? = some raw) (text : Text.allBlank raw = false)
    (wide : Indent.Wide l.unit) :
    Agrees (fun read p => read = (some (p.1, p.1.sigil), ⟨l.lines, l.cursor + 1, p.2⟩))
      l.nextLine (Line.read l.unit (l.cursor + 1) raw) := by
  rw [nextLine, next]
  simp only [text, Bool.false_eq_true, if_false]
  refine .step (lead_eq raw) ((measure_agrees wide raw _).bind ?_)
  rintro ⟨depth, unit⟩ _ - rfl
  refine .ok ?_
  rw [Line.sigil, classify_trimEnd]

theorem takeBlock_agrees (within : l.cursor ≤ l.lines.length) (wide : Indent.Wide l.unit)
    (depth : Nat) :
    Agrees (fun read block => read = (block.lines, ⟨l.lines, l.cursor + block.taken, block.unit⟩))
      (l.takeBlock depth)
      (Line.takeBlock l.unit depth (l.cursor + 1) (l.lines.drop l.cursor)) := by
  have below : rangeFrom l.lines l.cursor = some (l.lines.drop l.cursor) := by
    apply rangeFrom_eq (l.lines.take l.cursor)
    · exact (List.take_append_drop l.cursor l.lines).symm
    · rw [List.length_take, Nat.min_eq_left within]
  refine .step below ?_
  unfold Line.takeBlock
  cases shown : (l.lines.drop l.cursor).dropWhile Text.allBlank with
  | nil =>
      rw [findIdx?_of_dropWhile_eq_nil shown]
      exact .ok rfl
  | cons first others =>
      have parts := List.takeWhile_append_dropWhile (p := Text.allBlank)
        (l := l.lines.drop l.cursor)
      rw [shown] at parts
      have here : item l.lines
          (l.cursor + ((l.lines.drop l.cursor).takeWhile Text.allBlank).length) = some first := by
        apply item_eq
          (l.lines.take l.cursor ++ (l.lines.drop l.cursor).takeWhile Text.allBlank) others
        · rw [List.append_assoc, parts, List.take_append_drop]
        · rw [List.length_append, List.length_take, Nat.min_eq_left within]
      have number : l.cursor + ((l.lines.drop l.cursor).takeWhile Text.allBlank).length + 1 =
          l.cursor + 1 + ((l.lines.drop l.cursor).takeWhile Text.allBlank).length :=
        Nat.add_right_comm ..
      rw [findIdx?_of_dropWhile_eq_cons shown]
      refine .step here (.step (lead_eq first) ?_)
      dsimp only
      rw [number, ← Line.lead]
      split
      · exact .ok rfl
      · refine (measure_agrees wide first _).bind ?_
        rintro ⟨measured, unit⟩ _ - rfl
        dsimp only
        split
        · exact .ok rfl
        · next deeper =>
            split
            · refine .step (if_pos (by omega)) ?_
              exact .error _
            · exact .ok rfl

theorem skipCount_eq (width : Nat) (below : List (List Char)) :
    skipCount width below =
      some (below.takeWhile fun raw => !Line.endsSkip width raw).length := by
  induction below with
  | nil => rfl
  | cons raw below ih =>
      rw [skipCount, indent_eq, ih]
      have ends : (!(raw.dropWhile Text.isIndent).isEmpty && (Line.lead raw).length ≤ width) =
        Line.endsSkip width raw := rfl
      simp only [Option.bind_eq_bind, Option.bind_some, ends]
      cases here : Line.endsSkip width raw with
      | true => simp [here]
      | false => simp [here]

theorem skipBlock_eq {bound depth : Nat} (fits : Indent.width l.unit depth ≤ bound) :
    l.skipBlock bound depth = some
      { l with cursor := l.cursor + Line.skipCount l.unit depth (l.lines.drop l.cursor) } := by
  rw [skipBlock, width_eq fits]
  simp only [Option.bind_eq_bind, Option.bind_some, skipCount_eq]
  rfl

end Lexer

end Haml.Offset
