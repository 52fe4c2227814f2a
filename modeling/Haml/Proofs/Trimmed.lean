import Haml.Evaluator.Echo
import Haml.Proofs.Indented
import Haml.Proofs.Static
import Mathlib.Data.List.DropRight
/-! Trimmed white space: what stands around a tag that is marked to have no white space there. -/

namespace Haml

open Text (isBlank trimEnd)

namespace Text

theorem prefix_trimEnd {front text : List Char} {c : Char} (seen : isBlank c = false)
    (starts : front ++ [c] <+: text) : front ++ [c] <+: trimEnd text := by
  obtain ⟨rest, rfl⟩ := starts
  induction rest using List.reverseRecOn with
  | nil =>
      rw [List.append_nil, trimEnd_of_blank front seen (List.forall_mem_nil _)]
  | append_singleton rest d ih =>
      rw [← List.append_assoc]
      by_cases blank : isBlank d = true
      · have shorter : trimEnd (front ++ [c] ++ rest ++ [d]) = trimEnd (front ++ [c] ++ rest) :=
          List.rdropWhile_concat_pos _ _ _ blank
        rw [shorter]
        exact ih
      · rw [trimEnd_of_blank _ (Bool.eq_false_iff.mpr blank) (List.forall_mem_nil _),
          List.append_assoc]
        exact List.prefix_append _ _

theorem getLast?_trimEnd (cs : List Char) : ∀ c ∈ (trimEnd cs).getLast?, isBlank c = false := by
  intro c last
  have filled : trimEnd cs ≠ [] := by
    intro absent
    rw [absent] at last
    cases last
  rw [List.getLast?_eq_some_getLast filled] at last
  cases last
  exact Bool.eq_false_iff.mpr (List.rdropWhile_last_not isBlank cs filled)

end Text

namespace Buffer

variable {front : List Char} {c : Char} {b : Buffer}

/-- Whether an output starts with a text and a visible character after it. -/
def Holds (front : List Char) (c : Char) (b : Buffer) : Prop :=
  isBlank c = false ∧ front ++ [c] <+: b.text

theorem Holds.line (holds : b.Holds front c) (depth : Nat) (text : List Char) :
    (b.line depth text).Holds front c := by
  refine ⟨holds.1, holds.2.trans ?_⟩
  simp only [Buffer.line, List.append_assoc]
  exact List.prefix_append _ _

theorem Holds.lines (holds : b.Holds front c) (depth : Nat) (text : List Char) :
    (b.lines depth text).Holds front c := by
  rw [Buffer.lines]
  split
  · exact holds
  · exact List.foldlRecOn _ _ holds fun _ held raw _ => held.line depth raw

theorem Holds.glueIf (holds : b.Holds front c) (trim : Bool) :
    (Render.glueIf trim b).Holds front c := by
  cases trim with
  | false => exact holds
  | true => exact ⟨holds.1, Text.prefix_trimEnd holds.1 holds.2⟩

theorem Holds.shorter {rest : List Char} {d : Char} (holds : b.Holds (front ++ d :: rest) c)
    (seen : isBlank d = false) : b.Holds front d := by
  refine ⟨seen, List.IsPrefix.trans ⟨rest ++ [c], ?_⟩ holds.2⟩
  simp

def indent (b : Buffer) (depth : Nat) : List Char :=
  if b.glued then [] else List.replicate (2 * depth) ' '

theorem line_of_filled {text : List Char} (filled : text ≠ []) (depth : Nat) (b : Buffer) :
    b.line depth text = ⟨b.text ++ b.indent depth ++ text ++ ['\n'], false⟩ := by
  have given : text.isEmpty = false := List.isEmpty_eq_false_iff.mpr filled
  rw [line, given, Bool.or_false]
  rfl

theorem holds_line {c : Char} (seen : isBlank c = false) (depth : Nat) (front rest : List Char)
    (b : Buffer) :
    (b.line depth (front ++ c :: rest)).Holds (b.text ++ b.indent depth ++ front) c := by
  rw [line_of_filled (by simp)]
  exact ⟨seen, rest ++ ['\n'], by simp⟩

theorem line_ended (depth : Nat) (front : List Char) (b : Buffer) :
    (b.line depth (front ++ ['>'])).text = b.text ++ b.indent depth ++ front ++ ['>', '\n'] := by
  rw [line_of_filled (by simp)]
  simp

theorem glue_ended {front : List Char} (ended : b.text = front ++ ['>', '\n']) :
    b.glue = ⟨front ++ ['>'], true⟩ := by
  have blank : ∀ d ∈ ['\n'], isBlank d = true := List.forall_mem_singleton.mpr rfl
  rw [glue, ended, Text.trimEnd_of_blank front rfl blank]

end Buffer

namespace Render

open Buffer (Holds)

section

variable (e : Evaluator) (settings : RenderSettings) (context : Context) {front : List Char}
  {c : Char}
  {b : Buffer}

theorem Holds.writeElement (holds : b.Holds front c) (depth : Nat) (tag : CompiledTag)
    (opened : List Char) (inner : Option (List Char)) :
    (Render.writeElement settings depth tag opened inner b).Holds front c := by
  cases inner with
  | none => exact holds.line depth _
  | some inner =>
      rw [Render.writeElement]
      split
      · exact ((holds.line depth _).lines (depth + 1) inner).line depth _
      · exact holds.line depth _

theorem Holds.writeWith (holds : b.Holds front c) (text : Except Error (List Char))
    {writing : List Char → Buffer} (writes : ∀ text, (writing text).Holds front c) :
    (writeWith b text writing).2.Holds front c := by
  cases text with
  | error failure => exact holds
  | ok text => exact writes text

/-- What has been written up to a visible character stays, whatever is written then. -/
theorem Holds.write (holds : b.Holds front c) (i : Instruction) :
    (write e settings context i b).2.Holds front c := by
  cases i with
  | text depth text => exact holds.line depth text.toList
  | interpolated depth segments escape line => exact Holds.writeWith holds _ (holds.lines depth)
  | output depth code escape line => exact Holds.writeWith holds _ (holds.lines depth)
  | element depth tag content line =>
      have glued := holds.glueIf tag.trimOuter
      rw [Render.write]
      split
      · exact (Holds.writeElement settings glued depth tag _ _).glueIf tag.trimOuter
      · exact glued
  | openTag depth tag line =>
      have glued := holds.glueIf tag.trimOuter
      exact Holds.writeWith glued _ fun opened => (glued.line depth _).glueIf tag.trimInner
  | closeTag depth name trimInner trimOuter =>
      exact ((holds.glueIf trimInner).line depth _).glueIf trimOuter
  | filter depth name filter text line => exact Holds.writeWith holds _ (holds.lines depth)
  | script code line body => exact holds

theorem Holds.writeAll (holds : b.Holds front c) (is : List Instruction) :
    (writeAll e settings context is b).Holds front c := by
  induction is generalizing b with
  | nil => exact holds
  | cons i rest ih => exact ih (Holds.write e settings context holds i)

end

end Render

namespace Instruction

def lead : Instruction → List Char
  | .text _ raw => raw.toList
  | .element _ tag _ _ | .openTag _ tag _ => '<' :: tag.name.toList
  | .closeTag _ name _ _ => '<' :: '/' :: name.toList
  | .interpolated .. | .output .. | .filter .. | .script .. => []

def trimsBefore : Instruction → Bool
  | .element _ tag _ _ | .openTag _ tag _ => tag.trimOuter
  | .closeTag _ _ trimInner _ => trimInner
  | .text .. | .interpolated .. | .output .. | .filter .. | .script .. => false

def trimsAfter : Instruction → Bool
  | .element _ tag _ _ => tag.trimOuter
  | .openTag _ tag _ => tag.trimInner
  | .closeTag _ _ _ trimOuter => trimOuter
  | .text .. | .interpolated .. | .output .. | .filter .. | .script .. => false

def isTag : Instruction → Bool
  | .element .. | .openTag .. | .closeTag .. => true
  | .text .. | .interpolated .. | .output .. | .filter .. | .script .. => false

def isEmptyLine (i : Instruction) : Bool := i.lead.isEmpty

end Instruction

namespace Render

open Instruction (lead trimsBefore trimsAfter isTag isEmptyLine)

variable (e : Evaluator) (settings : RenderSettings) (context : Context)

theorem openTag_static {tag : CompiledTag} (known : tag.computed = []) :
    ∃ attributes, openTag e context settings tag = .ok ('<' :: tag.name.toList ++ attributes) := by
  simp only [openTag, known, List.foldlM_nil]
  exact ⟨_, rfl⟩

theorem holds_writeElement (depth : Nat) (tag : CompiledTag) (opened : List Char)
    (inner : Option (List Char)) (b : Buffer) :
    ∃ more, (writeElement settings depth tag opened inner b).Holds
      (b.text ++ b.indent depth ++ (opened ++ more)) '>' := by
  have first (rest : List Char) : (b.line depth (opened ++ '>' :: rest)).Holds
      (b.text ++ b.indent depth ++ (opened ++ [])) '>' := by
    rw [List.append_nil]
    exact b.holds_line rfl depth opened rest
  cases inner with
  | none =>
      rw [writeElement]
      split
      · exact ⟨[], first []⟩
      · refine ⟨" /".toList, ?_⟩
        have held := b.holds_line (c := '>') rfl depth (opened ++ " /".toList) []
        rw [List.append_assoc opened] at held
        exact held
  | some inner =>
      refine ⟨[], ?_⟩
      rw [writeElement]
      split
      · exact ((first []).lines (depth + 1) inner).line depth _
      · have whole : opened ++ ['>'] ++ inner ++ endTag tag.name =
            opened ++ '>' :: (inner ++ endTag tag.name) := by simp
        rw [whole]
        exact first (inner ++ endTag tag.name)

theorem text_writeElement (depth : Nat) (tag : CompiledTag) (opened : List Char)
    (inner : Option (List Char)) (b : Buffer) :
    ∃ front, (writeElement settings depth tag opened inner b).text = front ++ ['>', '\n'] := by
  cases inner with
  | none =>
      rw [writeElement]
      split
      · exact ⟨_, b.line_ended depth opened⟩
      · have ended := b.line_ended depth (opened ++ " /".toList)
        rw [List.append_assoc] at ended
        exact ⟨_, ended⟩
  | some inner =>
      rw [writeElement]
      split
      · exact ⟨_, Buffer.line_ended depth ("</".toList ++ tag.name.toList) _⟩
      · have whole : opened ++ ['>'] ++ inner ++ endTag tag.name =
            opened ++ ['>'] ++ inner ++ ("</".toList ++ tag.name.toList) ++ ['>'] := by
          simp [endTag]
        rw [whole]
        exact ⟨_, b.line_ended depth _⟩

theorem write_element {depth : Nat} {tag : CompiledTag} {content : ElementContent} {line : Nat}
    (static : (Instruction.element depth tag content line).Static) (b : Buffer) :
    ∃ attributes inner, Render.content e context content = .ok inner ∧
      (write e settings context (.element depth tag content line) b).2 =
        glueIf tag.trimOuter (writeElement settings depth tag ('<' :: tag.name.toList ++ attributes)
          inner (glueIf tag.trimOuter b)) := by
  obtain ⟨attributes, opened⟩ := openTag_static e settings context static.1
  obtain ⟨inner, filled⟩ := content_of_inert static.2.inert
  refine ⟨attributes, inner, filled e context, ?_⟩
  simp only [write, opened, filled e context]
  rfl

theorem write_openTag {depth : Nat} {tag : CompiledTag} {line : Nat}
    (static : (Instruction.openTag depth tag line).Static) (b : Buffer) :
    ∃ attributes, (write e settings context (.openTag depth tag line) b).2 =
      glueIf tag.trimInner ((glueIf tag.trimOuter b).line depth
        ('<' :: tag.name.toList ++ attributes ++ ['>'])) := by
  obtain ⟨attributes, opened⟩ := openTag_static e settings context static
  refine ⟨attributes, ?_⟩
  simp only [write, opened]
  rfl

/-- A tag is written right behind what was written before, and the white space that its line starts
with. -/
theorem write_tag {i : Instruction} (static : i.Static) (isTag : i.isTag = true) (b : Buffer) :
    let before := glueIf i.trimsBefore b
    ∃ depth more, (write e settings context i b).2.Holds
      (before.text ++ before.indent depth ++ (i.lead ++ more)) '>' := by
  cases i with
  | text | interpolated | output | filter | script => cases isTag
  | element depth tag content line =>
      obtain ⟨attributes, inner, -, same⟩ := write_element e settings context static b
      obtain ⟨more, held⟩ := holds_writeElement settings depth tag
        ('<' :: tag.name.toList ++ attributes) inner (glueIf tag.trimOuter b)
      rw [List.append_assoc ('<' :: tag.name.toList)] at held
      rw [same]
      exact ⟨depth, attributes ++ more, held.glueIf tag.trimOuter⟩
  | openTag depth tag line =>
      obtain ⟨attributes, same⟩ := write_openTag e settings context static b
      rw [same]
      exact ⟨depth, attributes,
        (Buffer.holds_line rfl depth ('<' :: tag.name.toList ++ attributes) [] _).glueIf
          tag.trimInner⟩
  | closeTag depth name trimInner trimOuter =>
      have held := (glueIf trimInner b).holds_line (c := '>') rfl depth ('<' :: '/' :: name.toList) []
      exact ⟨depth, [], by rw [List.append_nil]; exact held.glueIf trimOuter⟩

/-- After a tag that is marked so, nothing stands behind it, and the next line joins it. -/
theorem write_trimsAfter {i : Instruction} (static : i.Static) (trims : i.trimsAfter = true)
    (b : Buffer) : ∃ front, (write e settings context i b).2 = ⟨front ++ ['>'], true⟩ := by
  cases i with
  | text | interpolated | output | filter | script => cases trims
  | element depth tag content line =>
      obtain ⟨attributes, inner, -, same⟩ := write_element e settings context static b
      obtain ⟨front, ended⟩ := text_writeElement settings depth tag
        ('<' :: tag.name.toList ++ attributes) inner (glueIf tag.trimOuter b)
      have outer : tag.trimOuter = true := trims
      refine ⟨front, same.trans ?_⟩
      rw [outer] at ended ⊢
      exact Buffer.glue_ended ended
  | openTag depth tag line =>
      obtain ⟨attributes, same⟩ := write_openTag e settings context static b
      have inner : tag.trimInner = true := trims
      rw [inner] at same
      exact ⟨_, same.trans (Buffer.glue_ended (Buffer.line_ended depth _ _))⟩
  | closeTag depth name trimInner trimOuter =>
      have outer : trimOuter = true := trims
      subst outer
      exact ⟨_, Buffer.glue_ended (Buffer.line_ended depth ('<' :: '/' :: name.toList) _)⟩

theorem lead_of_isTag {i : Instruction} (isTag : i.isTag = true) :
    ∃ rest, i.lead = '<' :: rest := by
  cases i with
  | text | interpolated | output | filter | script => cases isTag
  | element | openTag | closeTag => exact ⟨_, rfl⟩

/-- What is written starts with a visible character, unless it is an empty line. -/
theorem write_shown {i : Instruction} (static : i.Static) (shown : i.isEmptyLine = false)
    (b : Buffer) :
    let before := glueIf i.trimsBefore b
    ∃ depth d, (write e settings context i b).2.Holds (before.text ++ before.indent depth) d := by
  by_cases isTag : i.isTag = true
  · obtain ⟨depth, more, held⟩ := write_tag e settings context static isTag b
    obtain ⟨rest, lead⟩ := lead_of_isTag isTag
    rw [lead] at held
    exact ⟨depth, '<', held.shorter rfl⟩
  · cases i with
    | element | openTag | closeTag => exact absurd rfl isTag
    | interpolated | output | filter | script => cases static
    | text depth raw =>
        have filled : raw.toList ≠ [] := List.isEmpty_eq_false_iff.mp shown
        obtain ⟨d, rest, whole⟩ := List.exists_cons_of_ne_nil filled
        have seen : isBlank d = false := static d (by rw [whole]; rfl)
        have held := b.holds_line seen depth [] rest
        rw [List.append_nil] at held
        refine ⟨depth, d, ?_⟩
        rw [write, whole]
        exact held

theorem write_emptyLine {i : Instruction} (static : i.Static) (empty : i.isEmptyLine = true)
    (b : Buffer) : (write e settings context i b).2 = ⟨b.text ++ ['\n'], false⟩ := by
  cases i with
  | element | openTag | closeTag => cases empty
  | interpolated | output | filter | script => cases static
  | text depth raw =>
      have nil : raw.toList = [] := List.isEmpty_iff.mp empty
      rw [write, nil]
      simp [Buffer.line]

end Render

/-- Whether what instructions write first joins what stands before: a line that is not empty, or after
empty ones a tag that trims the white space before it. -/
def Attached (after : List Instruction) : Prop :=
  (∀ i ∈ after.head?, i.isEmptyLine = false) ∨
    ∃ i ∈ (after.dropWhile Instruction.isEmptyLine).head?, i.trimsBefore = true

namespace Render

variable (e : Evaluator) (settings : RenderSettings) (context : Context) {front : List Char}
  {c : Char}

theorem writeAll_cons (i : Instruction) (is : List Instruction) (b : Buffer) :
    writeAll e settings context (i :: is) b =
      writeAll e settings context is (write e settings context i b).2 := rfl

/-- After a line that is not empty, its first character stands behind what was written before it. -/
theorem writeAll_shown {i : Instruction} (static : i.Static) (shown : i.isEmptyLine = false)
    (is : List Instruction) (b : Buffer) :
    let before := glueIf i.trimsBefore b
    ∃ depth d rest, isBlank d = false ∧ (writeAll e settings context (i :: is) b).text =
      before.text ++ before.indent depth ++ d :: rest := by
  obtain ⟨depth, d, held⟩ := write_shown e settings context static shown b
  obtain ⟨seen, rest, text⟩ := Holds.writeAll e settings context held is
  rw [List.append_assoc, List.singleton_append] at text
  exact ⟨depth, d, rest, seen, text.symm⟩

/-- White space that has been written stays, unless the next line that is not empty trims it. -/
theorem writeAll_broken {is : List Instruction} (static : ∀ i ∈ is, i.Static)
    (seen : isBlank c = false) {blanks : List Char} (filled : blanks ≠ [])
    (blank : ∀ d ∈ blanks, isBlank d = true) :
    ∃ rest, (writeAll e settings context is ⟨front ++ c :: blanks, false⟩).text =
        front ++ c :: rest ∧
      ((∀ d ∈ rest.head?, isBlank d = false) ↔
        ∃ i ∈ (is.dropWhile Instruction.isEmptyLine).head?, i.trimsBefore = true) := by
  -- Empty lines lengthen the white space; the first other line settles what becomes of it.
  induction is generalizing blanks with
  | nil =>
      refine ⟨blanks, rfl, fun visible => ?_, fun ⟨i, absent, _⟩ => by cases absent⟩
      obtain ⟨d, rest, rfl⟩ := List.exists_cons_of_ne_nil filled
      cases (visible d rfl).symm.trans (blank d (List.mem_cons_self ..))
  | cons i is ih =>
      obtain ⟨here, others⟩ := List.forall_mem_cons.mp static
      by_cases empty : i.isEmptyLine = true
      · have longer : ∀ d ∈ blanks ++ ['\n'], isBlank d = true :=
          List.forall_mem_append.mpr ⟨blank, List.forall_mem_singleton.mpr rfl⟩
        have text : front ++ c :: blanks ++ ['\n'] = front ++ c :: (blanks ++ ['\n']) := by simp
        rw [writeAll_cons, write_emptyLine e settings context here empty,
          List.dropWhile_cons_of_pos empty, text]
        exact ih others (by simp) longer
      · rw [List.dropWhile_cons_of_neg empty]
        obtain ⟨depth, d, rest, visible, text⟩ := writeAll_shown e settings context here
          (Bool.eq_false_iff.mpr empty) is ⟨front ++ c :: blanks, false⟩
        cases trims : i.trimsBefore with
        | true =>
            have glued : glueIf true ⟨front ++ c :: blanks, false⟩ = ⟨front ++ [c], true⟩ :=
              congrArg (Buffer.mk · true) (Text.trimEnd_of_blank front seen blank)
            rw [trims, glued] at text
            refine ⟨d :: rest, ?_, fun _ => ⟨i, rfl, trims⟩, ?_⟩
            · simpa [Buffer.indent] using text
            · rintro - f ⟨⟩
              exact visible
        | false =>
            obtain ⟨first, blanks, rfl⟩ := List.exists_cons_of_ne_nil filled
            rw [trims] at text
            refine ⟨first :: (blanks ++ List.replicate (2 * depth) ' ' ++ d :: rest), ?_, ?_, ?_⟩
            · simpa [glueIf, Buffer.indent] using text
            · intro solid
              cases (solid first rfl).symm.trans (blank first (List.mem_cons_self ..))
            · rintro ⟨j, ⟨⟩, other⟩
              cases trims.symm.trans other

/-- Behind what has been trimmed there is no white space exactly if what is written next joins it. -/
theorem writeAll_glued {is : List Instruction} (static : ∀ i ∈ is, i.Static)
    (seen : isBlank c = false) :
    ∃ rest, (writeAll e settings context is ⟨front ++ [c], true⟩).text = front ++ c :: rest ∧
      ((∀ d ∈ rest.head?, isBlank d = false) ↔ Attached is) := by
  cases is with
  | nil => exact ⟨[], rfl, fun _ => .inl nofun, nofun⟩
  | cons i is =>
      obtain ⟨here, others⟩ := List.forall_mem_cons.mp static
      by_cases empty : i.isEmptyLine = true
      · have blank : ∀ d ∈ ['\n'], isBlank d = true := List.forall_mem_singleton.mpr rfl
        obtain ⟨rest, text, joins⟩ : ∃ rest, (writeAll e settings context is
            ⟨front ++ [c, '\n'], false⟩).text = front ++ c :: rest ∧ _ :=
          writeAll_broken e settings context others seen nofun blank
        refine ⟨rest, ?_, joins.trans ⟨fun trims => .inr ?_, fun attached => ?_⟩⟩
        · rw [writeAll_cons, write_emptyLine e settings context here empty, List.append_assoc]
          exact text
        · rwa [List.dropWhile_cons_of_pos empty]
        · rcases attached with filled | trims
          · cases empty.symm.trans (filled i rfl)
          · rwa [List.dropWhile_cons_of_pos empty] at trims
      · have filled : i.isEmptyLine = false := Bool.eq_false_iff.mpr empty
        obtain ⟨depth, d, rest, visible, text⟩ :=
          writeAll_shown e settings context here filled is ⟨front ++ [c], true⟩
        have glued : glueIf i.trimsBefore ⟨front ++ [c], true⟩ = ⟨front ++ [c], true⟩ := by
          cases i.trimsBefore with
          | true =>
              have trimmed := Text.trimEnd_of_blank front seen (List.forall_mem_nil _)
              exact congrArg (Buffer.mk · true) trimmed
          | false => rfl
        rw [glued] at text
        refine ⟨d :: rest, ?_, fun _ => .inl ?_, ?_⟩
        · simpa [Buffer.indent] using text
        · rintro j ⟨⟩
          exact filled
        · rintro - f ⟨⟩
          exact visible

theorem trimEnd_glueIf (trim : Bool) (b : Buffer) :
    trimEnd (glueIf trim b).text = trimEnd b.text := by
  cases trim with
  | false => rfl
  | true => exact List.rdropWhile_idempotent _ _

theorem writeElement_of_trimInner {tag : CompiledTag} (inner : tag.trimInner = true) (depth : Nat)
    (opened text : List Char) (b : Buffer) :
    writeElement settings depth tag opened (some text) b =
      b.line depth (opened ++ '>' :: (text ++ "</".toList ++ tag.name.toList) ++ ['>']) := by
  rw [writeElement, inner, Bool.not_true, Bool.and_false, if_neg Bool.false_ne_true]
  simp [endTag]

theorem write_inline {depth : Nat} {tag : CompiledTag} {raw : String} {line : Nat}
    (static : (Instruction.element depth tag (.text raw) line).Static) (inner : tag.trimInner = true)
    (b : Buffer) :
    ∃ front, trimEnd (write e settings context (.element depth tag (.text raw) line) b).2.text =
      front ++ '>' :: (raw.toList ++ endTag tag.name) := by
  obtain ⟨attributes, content, filled, same⟩ := write_element e settings context static b
  cases filled
  have blank : ∀ d ∈ ['\n'], isBlank d = true := List.forall_mem_singleton.mpr rfl
  rw [same, trimEnd_glueIf, writeElement_of_trimInner settings inner, Buffer.line_ended,
    Text.trimEnd_of_blank _ rfl blank]
  refine ⟨(glueIf tag.trimOuter b).text ++ (glueIf tag.trimOuter b).indent depth ++
    ('<' :: tag.name.toList ++ attributes), ?_⟩
  simp [endTag]

end Render

open Render (writeAll)

/-- What has become of the white space around an instruction, where `written` says what instructions
write and `out` is the whole output. -/
structure Instruction.TrimmedIn (written : List Instruction → List Char) (out : List Char)
    (before : List Instruction) (i : Instruction) (after : List Instruction) : Prop where
  /-- Its tag stands right behind what was written before, with no white space at the end. -/
  start : i.trimsBefore = true → (∀ c ∈ (trimEnd (written before)).getLast?, isBlank c = false) ∧
    trimEnd (written before) ++ i.lead <+: out
  /-- What is written next stands right behind its tag if it is attached, and only then. -/
  finish : i.trimsAfter = true → ∃ front rest, written (before ++ [i]) = front ++ ['>'] ∧
    out = front ++ '>' :: rest ∧ ((∀ c ∈ rest.head?, isBlank c = false) ↔ Attached after)
  /-- Text in an element stands right between its tags. -/
  inside : ∀ depth tag raw line, i = .element depth tag (.text raw) line → tag.trimInner = true →
    Text.IsSolid raw.toList ∧ ∃ front,
      trimEnd (written (before ++ [i])) = front ++ '>' :: (raw.toList ++ Render.endTag tag.name) ∧
      trimEnd (written (before ++ [i])) <+: out

theorem Instruction.isTag_of_trimsBefore {i : Instruction} (trims : i.trimsBefore = true) :
    i.isTag = true := by
  cases i with
  | element | openTag | closeTag => rfl
  | text | interpolated | output | filter | script => cases trims

theorem Render.trimmedIn (e : Evaluator) (settings : RenderSettings) (c : Context)
    {before after : List Instruction} {i : Instruction}
    (static : ∀ j ∈ before ++ i :: after, j.Static) :
    let written is := (writeAll e settings c is .empty).text
    i.TrimmedIn written (written (before ++ i :: after)) before after := by
  obtain ⟨-, others⟩ := List.forall_mem_append.mp static
  obtain ⟨here, rest⟩ := List.forall_mem_cons.mp others
  obtain ⟨b, started⟩ : ∃ b, writeAll e settings c before .empty = b := ⟨_, rfl⟩
  have through : writeAll e settings c (before ++ [i]) .empty = (write e settings c i b).2 := by
    rw [← started]
    exact List.foldl_append ..
  have whole : writeAll e settings c (before ++ i :: after) .empty =
      writeAll e settings c after (write e settings c i b).2 := by
    rw [← started]
    exact List.foldl_append ..
  constructor
  case start =>
    intro trims
    obtain ⟨depth, more, held⟩ := write_tag e settings c here (i.isTag_of_trimsBefore trims) b
    obtain ⟨-, behind, text⟩ := Holds.writeAll e settings c held after
    rw [trims] at text
    simp only [started, whole]
    refine ⟨Text.getLast?_trimEnd b.text, more ++ '>' :: behind, ?_⟩
    rw [← text]
    simp [glueIf, Buffer.glue, Buffer.indent]
  case finish =>
    intro trims
    obtain ⟨front, same⟩ := write_trimsAfter e settings c here trims b
    obtain ⟨behind, text, joins⟩ : ∃ behind, (writeAll e settings c after
        ⟨front ++ ['>'], true⟩).text = front ++ '>' :: behind ∧ _ :=
      writeAll_glued e settings c rest rfl
    simp only [through, whole, same]
    exact ⟨front, behind, rfl, text, joins⟩
  case inside =>
    rintro depth tag raw line rfl inner
    obtain ⟨front, text⟩ := write_inline e settings c here inner b
    have ended : front ++ '>' :: (raw.toList ++ endTag tag.name) =
        front ++ '>' :: (raw.toList ++ "</".toList ++ tag.name.toList) ++ ['>'] := by
      simp [endTag]
    have held : (write e settings c (.element depth tag (.text raw) line) b).2.Holds
        (front ++ '>' :: (raw.toList ++ "</".toList ++ tag.name.toList)) '>' := by
      refine ⟨rfl, ?_⟩
      rw [← ended, ← text]
      exact List.rdropWhile_prefix _ _
    have kept := (Holds.writeAll e settings c held after).2
    rw [← ended, ← text] at kept
    simp only [through, whole]
    exact ⟨here.2, front, text, kept⟩

/-- White space around the tags of a static forest: none stands before a tag that trims it, nor after
one unless an empty line comes next and no tag after it trims again; and text in an element that trims
its inside stands right between the tags. -/
theorem Forest.run_trimmed {forest : Forest} (static : ∀ n ∈ forest, n.Static) (o : Options)
    (e : Evaluator) (c : Context) :
    ∃ t, forest.compile o = .ok t ∧
      let written is := (writeAll e t.settings c is .empty).text
      t.run e c = (.ok (String.ofList (written t.instructions)), c) ∧
      ∀ before i after, t.instructions = before ++ i :: after →
        i.TrimmedIn written (written t.instructions) before after := by
  obtain ⟨t, compiled, -, -, each⟩ := forest.compile_static static o
  refine ⟨t, compiled, ?_, ?_⟩
  · rw [Template.run, Render.steps_static e t.settings c each]
    rfl
  · intro before i after parts
    rw [parts] at each ⊢
    exact Render.trimmedIn e t.settings c each

namespace Trimmed

def page (trims : Bool) : Forest :=
  [⟨.tag ⟨"p", [], false, true, false, none⟩, 1, []⟩, ⟨.text "", 2, []⟩,
    ⟨.tag ⟨"b", [], false, trims, false, some (.text "x")⟩, 3, []⟩]

theorem static_page (trims : Bool) : ∀ n ∈ page trims, n.Static := by
  have plain : Text.IsPlain "x" := ⟨rfl, by rintro c ⟨⟩; rfl, by rintro c ⟨⟩; rfl⟩
  simp only [page, List.forall_mem_cons]
  refine ⟨.intro ⟨nofun, nofun⟩ nofun, .intro ⟨rfl, nofun, nofun⟩ nofun, .intro ⟨nofun, ?_⟩ nofun,
    List.forall_mem_nil _⟩
  rintro content ⟨⟩
  exact plain

end Trimmed

open Trimmed

theorem Forest.run_trimmed_again :
    Document.read .auto "%p>\n\\\n%b> x" = .ok (page true) ∧
    ∃ t, (page true).compile .standard = .ok t ∧
      let written is := (writeAll Evaluator.Echo.evaluator t.settings (.new .echo) is .empty).text
      ∀ before i after, t.instructions = before ++ i :: after →
        i.TrimmedIn written (written t.instructions) before after := by
  obtain ⟨t, compiled, -, trimmed⟩ :=
    (page true).run_trimmed (static_page true) .standard Evaluator.Echo.evaluator (.new .echo)
  exact ⟨by decide +kernel, t, compiled, trimmed⟩

/-- An empty line after a tag that trims white space ends in white space behind it. -/
theorem Forest.emptyLine_untrimmed :
    Document.read .auto "%p>\n\\\n%b x" = .ok (page false) ∧ (∀ n ∈ page false, n.Static) ∧
    ((page false).compile .standard).map
        (fun t => (t.run Evaluator.Echo.evaluator (.new .echo)).1) =
      .ok (.ok "<p></p>\n<b>x</b>\n") :=
  ⟨by decide +kernel, static_page false, by decide +kernel⟩

end Haml
