import Haml.Proofs.Content
import Haml.Proofs.OneLine
import Haml.Proofs.Sequences
import Haml.Proofs.Shifted
import Haml.Proofs.Trimmed
/-! Safe texts: markup that values bring into the output, where it stands as it is and where it is
escaped after all. -/

namespace Haml

namespace Markup

def isSpecial (c : Char) : Bool := "&<>\"'".toList.contains c

theorem entity_of_plain {c : Char} (plain : isSpecial c = false) : entity c = [c] := by
  unfold entity
  split
  case h_6 => rfl
  all_goals exact absurd plain (by decide)

theorem length_entity (c : Char) :
    0 < (entity c).length ∧ (isSpecial c = true → 1 < (entity c).length) := by
  unfold entity
  split
  case h_6 amp lt gt double single =>
    refine ⟨Nat.one_pos, fun special => ?_⟩
    have among : c = '&' ∨ c = '<' ∨ c = '>' ∨ c = '"' ∨ c = '\'' := by
      simpa [isSpecial] using special
    rcases among with rfl | rfl | rfl | rfl | rfl
    · exact (amp rfl).elim
    · exact (lt rfl).elim
    · exact (gt rfl).elim
    · exact (double rfl).elim
    · exact (single rfl).elim
  all_goals exact ⟨by decide, fun _ => by decide⟩

theorem length_le_escapeChars (cs : List Char) : cs.length ≤ (escapeChars cs).length := by
  induction cs with
  | nil => exact Nat.le_refl _
  | cons c cs ih =>
      have first := (length_entity c).1
      have whole : escapeChars (c :: cs) = entity c ++ escapeChars cs := rfl
      rw [whole, List.length_append, List.length_cons]
      omega

theorem escapeChars_eq_iff (cs : List Char) :
    escapeChars cs = cs ↔ ∀ c ∈ cs, isSpecial c = false := by
  induction cs with
  | nil => simp [escapeChars]
  | cons c cs ih =>
      have whole : escapeChars (c :: cs) = entity c ++ escapeChars cs := rfl
      rw [whole, List.forall_mem_cons, ← ih]
      constructor
      · intro same
        have plain : isSpecial c = false := by
          rw [← Bool.not_eq_true]
          intro special
          have longer := (length_entity c).2 special
          have rest := length_le_escapeChars cs
          have lengths := congrArg List.length same
          rw [List.length_append, List.length_cons] at lengths
          omega
        rw [entity_of_plain plain] at same
        exact ⟨plain, (List.cons.inj same).2⟩
      · rintro ⟨plain, rest⟩
        rw [entity_of_plain plain, rest]
        rfl

theorem escapeChars_part {part cs : List Char} (inside : part <:+: cs) :
    escapeChars part <:+: escapeChars cs := by
  obtain ⟨before, after, rfl⟩ := inside
  exact ⟨escapeChars before, escapeChars after, by simp [escapeChars]⟩

end Markup

namespace Text

theorem exists_splitOnP_append {p : Char → Bool} {raw : List Char}
    (whole : ∀ c ∈ raw, p c = false) (after : List Char) :
    ∃ rest pieces, (raw ++ after).splitOnP p = (raw ++ rest) :: pieces := by
  induction raw with
  | nil => exact List.exists_cons_of_ne_nil (List.splitOnP_ne_nil p after)
  | cons c raw ih =>
      obtain ⟨here, others⟩ := List.forall_mem_cons.mp whole
      obtain ⟨rest, pieces, split⟩ := ih others
      refine ⟨rest, pieces, ?_⟩
      rw [List.cons_append, List.splitOnP_cons_eq_if_modifyHead, here, if_neg Bool.false_ne_true,
        split]
      rfl

/-- What holds no end of a piece is part of a piece wherever it stands. -/
theorem exists_mem_splitOnP {p : Char → Bool} {text raw : List Char} (inside : raw <:+: text)
    (whole : ∀ c ∈ raw, p c = false) : ∃ piece ∈ text.splitOnP p, raw <:+: piece := by
  obtain ⟨before, after, rfl⟩ := inside
  rw [List.append_assoc]
  induction before with
  | nil =>
      obtain ⟨rest, pieces, split⟩ := exists_splitOnP_append whole after
      rw [List.nil_append, split]
      exact ⟨_, List.mem_cons_self .., (List.prefix_append raw rest).isInfix⟩
  | cons c before ih =>
      obtain ⟨piece, member, part⟩ := ih
      rw [List.cons_append, List.splitOnP_cons_eq_if_modifyHead]
      split
      · exact ⟨piece, List.mem_cons_of_mem _ member, part⟩
      · obtain ⟨first, pieces, split⟩ :=
          List.exists_cons_of_ne_nil (List.splitOnP_ne_nil p (before ++ (raw ++ after)))
        rw [split] at member ⊢
        obtain rfl | later := List.mem_cons.mp member
        · exact ⟨c :: piece, List.mem_cons_self .., List.infix_cons part⟩
        · exact ⟨piece, List.mem_cons_of_mem _ later, part⟩

def unended (cs : List Char) : List Char := (dropSuffix? ['\n'] cs).getD cs

/-- Whether each line of a text is part of a line of another. -/
def Carries (text cs : List Char) : Prop :=
  ∀ raw ∈ cs.splitOn '\n', ∃ piece ∈ text.splitOn '\n', raw <:+: piece

theorem carries_of_part {text cs : List Char} (inside : cs <:+: text) : Carries text cs :=
  fun _ member => exists_mem_splitOnP ((infix_of_mem_splitOnP member).trans inside)
    (of_mem_splitOnP member)

theorem carries_unended (cs : List Char) : Carries (unended cs) cs := by
  intro raw member
  rw [unended]
  cases dropped : dropSuffix? ['\n'] cs with
  | none => exact ⟨raw, member, List.infix_refl raw⟩
  | some body =>
      obtain rfl : body ++ ['\n'] = cs := List.isSuffixOf?_eq_some_iff_append_eq.mp dropped
      rw [List.splitOn_append_cons_self] at member
      obtain inside | last := List.mem_append.mp member
      · exact ⟨raw, inside, List.infix_refl raw⟩
      · obtain ⟨piece, pieces, split⟩ := List.exists_cons_of_ne_nil (List.splitOn_ne_nil '\n' body)
        rw [List.mem_singleton.mp last, Option.getD_some, split]
        exact ⟨piece, List.mem_cons_self .., ⟨[], piece, rfl⟩⟩

end Text

namespace Buffer

variable {raw text : List Char}

theorem prefix_line (depth : Nat) (text : List Char) (b : Buffer) :
    b.text <+: (b.line depth text).text := by
  simp only [line, List.append_assoc]
  exact List.prefix_append _ _

theorem infix_line (depth : Nat) (text : List Char) (b : Buffer) :
    text <:+: (b.line depth text).text :=
  ⟨_, _, rfl⟩

theorem Holds.part {front cs : List Char} {c : Char} {b : Buffer} (holds : b.Holds front c)
    (inside : cs <:+: front) : cs <:+: b.text :=
  inside.trans ((List.prefix_append front [c]).trans holds.2).isInfix

theorem prefix_foldl_line (depth : Nat) (pieces : List (List Char)) (b : Buffer) :
    b.text <+: (pieces.foldl (fun b raw => b.line depth raw) b).text := by
  induction pieces generalizing b with
  | nil => exact List.prefix_refl _
  | cons raw pieces ih => exact (prefix_line depth raw b).trans (ih _)

theorem infix_foldl_line {pieces : List (List Char)} (member : raw ∈ pieces) (depth : Nat)
    (b : Buffer) : raw <:+: (pieces.foldl (fun b raw => b.line depth raw) b).text := by
  induction pieces generalizing b with
  | nil => cases member
  | cons piece pieces ih =>
      obtain rfl | later := List.mem_cons.mp member
      · exact (infix_line depth raw b).trans (prefix_foldl_line depth pieces _).isInfix
      · exact ih later _

theorem infix_lines (member : raw ∈ text.splitOn '\n') (depth : Nat) (b : Buffer) :
    raw <:+: (b.lines depth text).text := by
  obtain ⟨piece, kept, inside⟩ := Text.carries_unended text raw member
  refine inside.trans ?_
  rw [lines, ← Text.unended]
  split
  · next empty =>
      rw [List.isEmpty_iff.mp empty] at kept
      rw [List.mem_singleton.mp kept]
      exact List.nil_infix
  · exact infix_foldl_line kept depth b

end Buffer

namespace Render

theorem infix_writeElement {raw inner : List Char}
    (member : raw ∈ inner.splitOn '\n') (settings : RenderSettings) (depth : Nat)
    (tag : CompiledTag) (opened : List Char) (b : Buffer) :
    raw <:+: (writeElement settings depth tag opened (some inner) b).text := by
  rw [writeElement]
  split
  · have below := Buffer.infix_lines member (depth + 1) (b.line depth (opened ++ ['>']))
    exact below.trans (Buffer.prefix_line depth (endTag tag.name) _).isInfix
  · have part : inner <:+: opened ++ ['>'] ++ inner ++ endTag tag.name :=
      ⟨opened ++ ['>'], endTag tag.name, rfl⟩
    exact (Text.infix_of_mem_splitOnP member).trans (part.trans (Buffer.infix_line depth _ b))

theorem infix_glueIf {raw front : List Char} {b : Buffer} (inside : raw <:+: b.text)
    (whole : '\n' ∉ raw) (ended : b.text = front ++ ['>', '\n']) (trim : Bool) :
    raw <:+: (glueIf trim b).text := by
  cases trim with
  | false => exact inside
  | true =>
      rw [glueIf, if_pos rfl, Buffer.glue_ended ended]
      rw [ended, List.append_cons, List.infix_concat_iff] at inside
      obtain last | earlier := inside
      · obtain rfl | ⟨rest, rfl, -⟩ := List.suffix_concat_iff.mp last
        · exact List.nil_infix
        · exact absurd (by simp) whole
      · exact earlier

variable {e : Evaluator} {c : Context}

theorem interpolate_append (escape : Bool) (before after : List Segment) :
    interpolate e c escape (before ++ after) = do
      let first ← interpolate e c escape before
      let second ← interpolate e c escape after
      return first ++ second := by
  induction before with
  | nil =>
      simp only [List.nil_append, interpolate]
      cases interpolate e c escape after <;> rfl
  | cons s before ih =>
      rw [List.cons_append, interpolate, interpolate, ih]
      cases segment e c escape s with
      | error failure => rfl
      | ok text =>
          cases interpolate e c escape before with
          | error failure => rfl
          | ok first =>
              cases interpolate e c escape after with
              | error failure => rfl
              | ok second => simp [bind, Except.bind, pure, Except.pure]

theorem interpolate_around {escape : Bool} {before after : List Segment} {s : Segment}
    {text : List Char} (ran : interpolate e c escape (before ++ s :: after) = .ok text) :
    ∃ first part last, segment e c escape s = .ok part ∧ text = first ++ part ++ last := by
  rw [interpolate_append] at ran
  obtain ⟨first, -, ran⟩ := bind_ok ran
  obtain ⟨second, rest, ran⟩ := bind_ok ran
  cases ran
  obtain ⟨part, here, rest⟩ := bind_ok rest
  obtain ⟨last, -, rest⟩ := bind_ok rest
  cases rest
  exact ⟨first, part, last, here, (List.append_assoc ..).symm⟩

theorem segment_safe {code text : String} (given : e.evaluate code c = .ok (.text text true))
    (escape : Bool) :
    segment e c escape (.expression code) = segment e c escape (.literal text) := by
  have shown : written escape (.text text true) text.toList = text.toList := by
    simp [written, Value.isSafe]
  simp only [segment, given]
  exact congrArg Except.ok shown

theorem interpolate_safe {code text : String} (given : e.evaluate code c = .ok (.text text true))
    (escape : Bool) (before after : List Segment) :
    interpolate e c escape (before ++ .expression code :: after) =
      interpolate e c escape (before ++ .literal text :: after) := by
  rw [interpolate_append, interpolate_append, interpolate, interpolate, segment_safe given]

theorem output_safe {code text : String} (given : e.evaluate code c = .ok (.text text true))
    (escape : Bool) : output e c code escape =
      .ok (Text.unended text.toList) := by
  rw [output, given]
  simp [Text.unended, written, Value.isSafe, Value.shown, Value.display, Value.isAbsent]

end Render

/-- Two instructions with one difference in what they write as content: an expression that comes to a
safe text in the one, and in the other the text itself, written out in the template. -/
inductive Instruction.Joins (e : Evaluator) (c : Context) (text : String) :
    Instruction → Instruction → Prop
  | output {code : String} {depth line : Nat} {escape : Bool} :
      e.evaluate code c = .ok (.text text true) →
      Joins e c text (.output depth code escape line)
        (.interpolated depth [.literal (String.ofList (Text.unended text.toList))] escape line)
  | segment {code : String} {depth line : Nat} {before after : List Segment} {escape : Bool} :
      e.evaluate code c = .ok (.text text true) →
      Joins e c text (.interpolated depth (before ++ .expression code :: after) escape line)
        (.interpolated depth (before ++ .literal text :: after) escape line)
  | inlineOutput {code : String} {depth line : Nat} {tag : CompiledTag} {escape : Bool} :
      e.evaluate code c = .ok (.text text true) →
      Joins e c text (.element depth tag (.output code escape) line)
        (.element depth tag (.text (String.ofList (Text.unended text.toList))) line)
  | inlineSegment {code : String} {depth line : Nat} {tag : CompiledTag}
      {before after : List Segment} {escape : Bool} :
      e.evaluate code c = .ok (.text text true) →
      Joins e c text
        (.element depth tag (.interpolated (before ++ .expression code :: after) escape) line)
        (.element depth tag (.interpolated (before ++ .literal text :: after) escape) line)

namespace Render

variable {e : Evaluator} {c : Context} {text : String} {i j : Instruction}

theorem write_joins (joins : i.Joins e c text j) (settings : RenderSettings) (b : Buffer) :
    write e settings c i b = write e settings c j b := by
  cases joins with
  | output given =>
      have same (escape : Bool) : interpolate e c escape
          [.literal (String.ofList (Text.unended text.toList))] =
          .ok (Text.unended text.toList) := by
        simp [interpolate, segment, bind, Except.bind, pure, Except.pure]
      rw [write, write, output_safe given, same]
  | segment given => rw [write, write, interpolate_safe given]
  | inlineOutput given =>
      rw [write, write, content, content, output_safe given, String.toList_ofList]
      rfl
  | inlineSegment given => rw [write, write, content, content, interpolate_safe given]

/-- What a place of content comes to if all of it can be evaluated. -/
theorem carries_interpolate {code : String} (given : e.evaluate code c = .ok (.text text true))
    {escape : Bool} {before after : List Segment} {whole : List Char}
    (ran : interpolate e c escape (before ++ .expression code :: after) = .ok whole) :
    Text.Carries whole text.toList := by
  obtain ⟨first, part, last, here, rfl⟩ := interpolate_around ran
  rw [segment_safe given] at here
  cases here
  exact Text.carries_of_part ⟨first, last, rfl⟩

theorem write_element_ok {depth line : Nat} {tag : CompiledTag} {inner : ElementContent}
    {settings : RenderSettings} {b : Buffer}
    (ran : (write e settings c (.element depth tag inner line) b).1 = .ok ()) :
    ∃ opened shown, openTag e c settings tag = .ok opened ∧ content e c inner = .ok shown ∧
      (write e settings c (.element depth tag inner line) b).2 =
        glueIf tag.trimOuter
          (writeElement settings depth tag opened shown (glueIf tag.trimOuter b)) := by
  simp only [write] at ran ⊢
  cases opens : openTag e c settings tag with
  | error failure =>
      rw [opens] at ran
      cases ran
  | ok opened =>
      cases fills : content e c inner with
      | error failure =>
          rw [opens, fills] at ran
          cases ran
      | ok shown => exact ⟨opened, shown, rfl, rfl, rfl⟩

theorem infix_write_element {depth line : Nat} {tag : CompiledTag} {inner : ElementContent}
    {settings : RenderSettings} {b : Buffer}
    (carries : ∀ shown, content e c inner = .ok shown →
      ∃ whole, shown = some whole ∧ Text.Carries whole text.toList)
    (ran : (write e settings c (.element depth tag inner line) b).1 = .ok ()) :
    ∀ raw ∈ text.toList.splitOn '\n',
      raw <:+: (write e settings c (.element depth tag inner line) b).2.text := by
  intro raw member
  obtain ⟨opened, shown, -, fills, same⟩ := write_element_ok ran
  obtain ⟨whole, rfl, carried⟩ := carries shown fills
  obtain ⟨piece, kept, inside⟩ := carried raw member
  obtain ⟨front, ended⟩ :=
    text_writeElement settings depth tag opened (some whole) (glueIf tag.trimOuter b)
  have stands := infix_writeElement kept settings depth tag opened (glueIf tag.trimOuter b)
  rw [same]
  exact infix_glueIf (inside.trans stands) (Text.not_mem_of_mem_splitOn member) ended tag.trimOuter

/-- Each line of a safe text stands in the output as it is. -/
theorem infix_write_joins (joins : i.Joins e c text j) {settings : RenderSettings} {b : Buffer}
    (ran : (write e settings c i b).1 = .ok ()) :
    ∀ raw ∈ text.toList.splitOn '\n', raw <:+: (write e settings c i b).2.text := by
  cases joins with
  | output given =>
      intro raw member
      obtain ⟨piece, kept, inside⟩ := Text.carries_unended text.toList raw member
      rw [write, output_safe given]
      exact inside.trans (Buffer.infix_lines kept _ b)
  | @segment code depth line before after escape given =>
      intro raw member
      rw [write] at ran ⊢
      cases filled : interpolate e c escape (before ++ .expression code :: after) with
      | error failure =>
          rw [filled] at ran
          cases ran
      | ok whole =>
          obtain ⟨piece, kept, inside⟩ := carries_interpolate given filled raw member
          exact inside.trans (Buffer.infix_lines kept depth b)
  | inlineOutput given =>
      refine infix_write_element (fun shown fills => ?_) ran
      rw [content, output_safe given] at fills
      cases fills
      exact ⟨_, rfl, Text.carries_unended text.toList⟩
  | inlineSegment given =>
      refine infix_write_element (fun shown fills => ?_) ran
      obtain ⟨whole, filled, rfl⟩ := map_ok fills
      exact ⟨whole, rfl, carries_interpolate given filled⟩

end Render

namespace AttributeSet

variable {s : AttributeSet} {name : String} {part : List Char}

def partsOf (name : String) (text : List Char) : List (List Char) :=
  if name = "class" then Text.words text else [text]

theorem partsOf_class (text : List Char) : partsOf "class" text = Text.words text := if_pos rfl

theorem partsOf_of_ne (other : name ≠ "class") (text : List Char) : partsOf name text = [text] :=
  if_neg other

/-- Whether a text stands in a part of what an attribute shows. -/
structure Shows (s : AttributeSet) (name : String) (part : List Char) : Prop where
  filled : part ≠ []
  within : ∃ shown ∈ partsOf name (s.textOf name), part <:+: shown

theorem textOf_put (name text : String) (s : AttributeSet) :
    textOf ⟨put name (.text text) s.entries⟩ name = text.toList := by
  rw [textOf, get?_put, if_pos rfl]

theorem infix_joinId (present text : String) :
    text.toList <:+: (joinId present text).toList ∧
      present.toList <:+: (joinId present text).toList := by
  unfold joinId
  split
  · next absent =>
      rw [absent]
      exact ⟨⟨[], present.toList, rfl⟩, List.infix_refl _⟩
  · split
    · next absent =>
        rw [absent]
        exact ⟨List.infix_refl _, ⟨[], text.toList, rfl⟩⟩
    · rw [String.toList_append, String.toList_append]
      exact ⟨(List.suffix_append _ _).isInfix, ⟨[], "-".toList ++ text.toList, by simp⟩⟩

/-- A text that is merged into an id stands in it, and so does what stood there before. -/
theorem infix_textOf_mergeId (text : String) (s : AttributeSet) :
    text.toList <:+: (s.mergeId text).textOf "id" ∧
      s.textOf "id" <:+: (s.mergeId text).textOf "id" := by
  have joined := infix_joinId (String.ofList (s.textOf "id")) text
  rwa [← ofList_textOf_mergeId, String.toList_ofList, String.toList_ofList] at joined

theorem shows_merge {text : String} (filled : part ≠ [])
    (within : ∃ shown ∈ partsOf name text.toList, part <:+: shown) (s : AttributeSet) :
    (s.merge name (.text text)).Shows name part := by
  refine ⟨filled, ?_⟩
  obtain ⟨shown, member, inside⟩ := within
  by_cases isClass : name = "class"
  · subst isClass
    refine ⟨shown, ?_, inside⟩
    rw [partsOf_class] at member ⊢
    exact (words_mergeClass s text).symm ▸ mem_addTokens.mpr (.inr member)
  · rw [partsOf_of_ne isClass] at member ⊢
    obtain rfl := List.mem_singleton.mp member
    refine ⟨_, List.mem_singleton_self _, inside.trans ?_⟩
    by_cases isId : name = "id"
    · subst isId
      exact (infix_textOf_mergeId text s).1
    · rw [merge, if_neg isClass, if_neg isId, textOf_put]

/-- What an attribute shows stays, unless another value is given to it that is not added. -/
theorem Shows.merge (shows : s.Shows name part) {other : String}
    (kept : Accumulates name ∨ other ≠ name) (value : AttributeValue) :
    (s.merge other value).Shows name part := by
  refine ⟨shows.filled, ?_⟩
  obtain ⟨shown, member, inside⟩ := shows.within
  by_cases here : other = name
  · subst here
    cases value with
    | flag value =>
        rw [AttributeSet.merge, if_pos (kept.resolve_right fun other => other rfl)]
        exact shows.within
    | text value =>
        obtain rfl | rfl := kept.resolve_right fun other => other rfl
        · refine ⟨shown, ?_, inside⟩
          rw [partsOf_class] at member ⊢
          exact (words_mergeClass s value).symm ▸ mem_addTokens.mpr (.inl member)
        · rw [partsOf_of_ne (by decide)] at member ⊢
          obtain rfl := List.mem_singleton.mp member
          exact ⟨_, List.mem_singleton_self _, inside.trans (infix_textOf_mergeId value s).2⟩
  · rw [textOf_congr (get?_merge_of_ne here s value)]
    exact shows.within

theorem Shows.mergeComputed (shows : s.Shows name part) {other : String}
    (kept : Accumulates name ∨ other ≠ name) (value : Option AttributeValue) :
    (s.mergeComputed other value).Shows name part := by
  cases value with
  | some value => exact shows.merge kept value
  | none =>
      rw [AttributeSet.mergeComputed]
      split
      · exact shows
      · next plain =>
          have apart : other ≠ name := by
            rintro rfl
            exact kept.elim plain fun other => other rfl
          have same : (s.erase other).get? name = s.get? name := by
            rw [get?_erase, if_neg apart]
          exact ⟨shows.filled, by rw [textOf_congr same]; exact shows.within⟩

theorem Shows.mergeEntries (shows : s.Shows name part) {entries : List (Value × Value)}
    (kept : ∀ entry ∈ entries, Accumulates name ∨ entry.1.display ≠ name) :
    (Render.mergeEntries s entries).Shows name part := by
  induction entries generalizing s with
  | nil => exact shows
  | cons entry entries ih =>
      obtain ⟨here, others⟩ := List.forall_mem_cons.mp kept
      exact ih (shows.mergeComputed here _) others

def StandsIn (name : String) (shown output : List Char) : Prop :=
  ∃ quote value, ' ' :: name.toList ++ '=' :: quote :: value ++ [quote] <:+: output ∧
    shown <:+: value

theorem StandsIn.trans {shown text output : List Char} (stands : StandsIn name shown text)
    (inside : text <:+: output) : StandsIn name shown output := by
  obtain ⟨quote, value, written, held⟩ := stands
  exact ⟨quote, value, written.trans inside, held⟩

/-- What an attribute shows is written, escaped if attributes are. -/
theorem Shows.standsIn (shows : s.Shows name part) (wrapper : Char) (escape : Bool) :
    StandsIn name (if escape then Markup.escapeChars part else part)
      (s.write wrapper escape).toList := by
  obtain ⟨shown, member, inside⟩ := shows.within
  have within : part <:+: s.textOf name := by
    refine inside.trans ?_
    unfold partsOf at member
    split at member
    · exact Text.infix_of_mem_splitOnP (List.mem_filter.mp member).1
    · rw [List.mem_singleton.mp member]
  unfold textOf at within
  split at within
  · next value found =>
      have written : writeEntry wrapper escape (name, .text value) <:+:
          (s.write wrapper escape).toList := by
        obtain ⟨before, after, split⟩ := List.append_of_mem (Dict.mem_of_find? found)
        rw [AttributeSet.write, String.toList_ofList, split, List.flatMap_append, List.flatMap_cons]
        exact ⟨_, _, List.append_assoc ..⟩
      refine ⟨_, _, written, ?_⟩
      cases escape with
      | true => exact Markup.escapeChars_part within
      | false => exact within
  · exact absurd (List.infix_nil.mp within) shows.filled

end AttributeSet

def AttributeEntry.names (e : Evaluator) (c : Context) : AttributeEntry → List String
  | .fixed name _ | .dynamic name _ => [name]
  | .splat code =>
      match e.evaluate code c with
      | .ok (.map entries) => entries.map (·.1.display)
      | _ => []

/-- Whether an entry of a tag gives an attribute a safe text: alone, within a string, or in a map,
with the names that the map has after it. -/
inductive AttributeEntry.Gives (e : Evaluator) (c : Context) (text name : String) :
    AttributeEntry → List String → Prop
  | expression {code : String} : e.evaluate code c = .ok (.text text true) →
      Gives e c text name (.dynamic name (.expression code)) []
  | interpolated {code : String} {before after : List Segment} {first last : List Char} :
      e.evaluate code c = .ok (.text text true) →
      Render.interpolate e c false before = .ok first →
      Render.interpolate e c false after = .ok last →
      Gives e c text name (.dynamic name (.interpolated (before ++ .expression code :: after))) []
  | splat {code : String} {key : Value} {before after : List (Value × Value)} :
      e.evaluate code c = .ok (.map (before ++ (key, .text text true) :: after)) →
      key.display = name →
      Gives e c text name (.splat code) (after.map (·.1.display))

/-- Whether a tag gives an attribute a safe text that nothing takes from it again. -/
def CompiledTag.Gives (e : Evaluator) (c : Context) (text name : String) (tag : CompiledTag) :
    Prop :=
  ∃ before entry within after, tag.computed = before ++ entry :: after ∧
    entry.Gives e c text name within ∧
    ∀ other ∈ within ++ after.flatMap (AttributeEntry.names e c),
      AttributeSet.Accumulates name ∨ other ≠ name

namespace Render

open AttributeSet (Shows StandsIn partsOf Accumulates)

variable {e : Evaluator} {c : Context} {text name : String} {part : List Char}

/-- What a text shows is shown by a text that holds it. -/
theorem exists_mem_partsOf {cs whole : List Char} (inside : cs <:+: whole)
    (member : part ∈ partsOf name cs) (filled : part ≠ []) :
    ∃ shown ∈ partsOf name whole, part <:+: shown := by
  unfold partsOf at member ⊢
  split
  · next isClass =>
      rw [if_pos isClass] at member
      obtain ⟨piece, -⟩ := List.mem_filter.mp member
      obtain ⟨shown, among, held⟩ := Text.exists_mem_splitOnP
        ((Text.infix_of_mem_splitOnP piece).trans inside) (Text.of_mem_splitOnP piece)
      refine ⟨shown, List.mem_filter.mpr ⟨among, decide_eq_true ?_⟩, held⟩
      rintro rfl
      exact filled (List.infix_nil.mp held)
  · next plain =>
      rw [if_neg plain] at member
      rw [List.mem_singleton.mp member]
      exact ⟨whole, List.mem_singleton_self _, inside⟩

/-- An entry that gives an attribute a safe text never fails, and the attribute shows the text unless
the entry itself takes it back. -/
theorem mergeEntry_gives {entry : AttributeEntry} {within : List String}
    (gives : entry.Gives e c text name within) (s : AttributeSet) :
    ∃ merged, mergeEntry e c s entry = .ok merged ∧
      ((∀ other ∈ within, Accumulates name ∨ other ≠ name) →
        ∀ part ∈ partsOf name text.toList, part ≠ [] → merged.Shows name part) := by
  cases gives with
  | expression given =>
      refine ⟨s.merge name (.text text), ?_, fun _ part member filled => ?_⟩
      · rw [mergeEntry, given]
        rfl
      · exact AttributeSet.shows_merge filled ⟨part, member, List.infix_refl part⟩ s
  | @interpolated code before after first last given front back =>
      have ran : interpolate e c false (before ++ .expression code :: after) =
          .ok (first ++ (text.toList ++ last)) := by
        rw [interpolate_safe given, interpolate_append, front, interpolate, segment, back]
        rfl
      refine ⟨s.merge name (.text (String.ofList (first ++ (text.toList ++ last)))), ?_,
        fun _ part member filled => ?_⟩
      · rw [mergeEntry, ran]
        rfl
      · have inside : text.toList <:+: first ++ (text.toList ++ last) := ⟨first, last, by simp⟩
        refine AttributeSet.shows_merge filled ?_ s
        rw [String.toList_ofList]
        exact exists_mem_partsOf inside member filled
  | @splat code key before after given named =>
      refine ⟨mergeEntries s (before ++ (key, .text text true) :: after), ?_,
        fun kept part member filled => ?_⟩
      · rw [mergeEntry, given]
        rfl
      · have shows := AttributeSet.shows_merge filled ⟨part, member, List.infix_refl part⟩
          (mergeEntries s before)
        subst named
        rw [mergeEntries, List.foldl_append]
        exact shows.mergeEntries fun entry among =>
          kept _ (List.mem_map_of_mem (f := fun entry => entry.1.display) among)

theorem mergeEntry_shows {s merged : AttributeSet} (shows : s.Shows name part)
    {entry : AttributeEntry} (kept : ∀ other ∈ entry.names e c, Accumulates name ∨ other ≠ name)
    (ran : mergeEntry e c s entry = .ok merged) : merged.Shows name part := by
  cases entry with
  | fixed other value =>
      cases ran
      exact shows.merge (kept other (List.mem_singleton_self _)) value
  | dynamic other value =>
      have here := kept other (List.mem_singleton_self _)
      cases value with
      | expression code =>
          obtain ⟨v, -, done⟩ := bind_ok ran
          cases done
          exact shows.mergeComputed here _
      | interpolated segments =>
          obtain ⟨text, -, done⟩ := bind_ok ran
          cases done
          exact shows.merge here _
  | splat code =>
      obtain ⟨v, given, done⟩ := bind_ok ran
      cases v with
      | map entries =>
          cases done
          refine shows.mergeEntries fun entry member => kept _ ?_
          rw [AttributeEntry.names, given]
          exact List.mem_map_of_mem (f := fun entry => entry.1.display) member
      | renderer r =>
          cases done
          exact shows
      | _ => cases done

theorem foldlM_shows {entries : List AttributeEntry} {s merged : AttributeSet}
    (shows : s.Shows name part)
    (kept : ∀ other ∈ entries.flatMap (AttributeEntry.names e c), Accumulates name ∨ other ≠ name)
    (ran : entries.foldlM (mergeEntry e c) s = .ok merged) : merged.Shows name part := by
  induction entries generalizing s with
  | nil =>
      cases ran
      exact shows
  | cons entry entries ih =>
      rw [List.flatMap_cons, List.forall_mem_append] at kept
      rw [List.foldlM_cons] at ran
      obtain ⟨next, first, rest⟩ := bind_ok ran
      exact ih (mergeEntry_shows shows kept.1 first) kept.2 rest

/-- A text that is given to an attribute stands in the tag, escaped if attributes are. -/
theorem openTag_gives {tag : CompiledTag} (gives : tag.Gives e c text name)
    {settings : RenderSettings} {opened : List Char}
    (opens : openTag e c settings tag = .ok opened) (member : part ∈ partsOf name text.toList)
    (filled : part ≠ []) :
    StandsIn name (if settings.escapeAttributes then Markup.escapeChars part else part) opened := by
  obtain ⟨before, entry, within, after, split, gives, kept⟩ := gives
  rw [List.forall_mem_append] at kept
  obtain ⟨set, folded, done⟩ := bind_ok opens
  cases done
  rw [split, List.foldlM_append] at folded
  obtain ⟨first, -, rest⟩ := bind_ok folded
  rw [List.foldlM_cons] at rest
  obtain ⟨merged, given, rest⟩ := bind_ok rest
  obtain ⟨same, ran, shows⟩ := mergeEntry_gives gives first
  cases ran.symm.trans given
  have shown := foldlM_shows (shows kept.1 part member filled) kept.2 rest
  have stands := shown.standsIn settings.attributeWrapper settings.escapeAttributes
  exact stands.trans (List.suffix_append _ _).isInfix

theorem infix_write_tag {i : Instruction} {tag : CompiledTag} (has : i.tag? = some tag)
    {settings : RenderSettings} {b : Buffer} (ran : (write e settings c i b).1 = .ok ()) :
    ∃ opened, openTag e c settings tag = .ok opened ∧
      opened <:+: (write e settings c i b).2.text := by
  cases i with
  | element depth tag inner line =>
      cases has
      obtain ⟨opened, shown, opens, -, same⟩ := write_element_ok ran
      obtain ⟨more, held⟩ :=
        holds_writeElement settings depth tag opened shown (glueIf tag.trimOuter b)
      rw [same]
      exact ⟨opened, opens, (held.glueIf tag.trimOuter).part ⟨_, more, List.append_assoc ..⟩⟩
  | openTag depth tag line =>
      cases has
      rw [write] at ran ⊢
      cases opens : Render.openTag e c settings tag with
      | error failure =>
          rw [opens] at ran
          cases ran
      | ok opened =>
          have held := Buffer.holds_line (c := '>') rfl depth opened [] (glueIf tag.trimOuter b)
          exact ⟨opened, rfl, (held.glueIf tag.trimInner).part (List.suffix_append _ _).isInfix⟩
  | _ => cases has

/-- Safe texts: wherever one joins the content of a template, it is written as if it stood there, and
each of its lines is in the output as it is. Given to an attribute it stands between the quotes there,
as it is exactly if attributes are not escaped, or there is nothing in it to escape. -/
theorem write_safe (e : Evaluator) (c : Context) (text : String) (settings : RenderSettings)
    (b : Buffer) :
    (∀ i j, i.Joins e c text j → write e settings c i b = write e settings c j b ∧
      ((write e settings c i b).1 = .ok () → ∀ raw ∈ text.toList.splitOn '\n',
        raw <:+: (write e settings c i b).2.text)) ∧
    (∀ entry name within, entry.Gives e c text name within →
      ∀ s, ∃ merged, mergeEntry e c s entry = .ok merged) ∧
    ∀ i tag name, i.tag? = some tag → tag.Gives e c text name → (write e settings c i b).1 = .ok () →
      ∀ part ∈ partsOf name text.toList, part ≠ [] →
        let shown := if settings.escapeAttributes then Markup.escapeChars part else part
        StandsIn name shown (write e settings c i b).2.text ∧
          (shown = part ↔
            settings.escapeAttributes = false ∨ ∀ d ∈ part, Markup.isSpecial d = false) := by
  refine ⟨?_, ?_, ?_⟩
  · intro i j joins
    exact ⟨write_joins joins settings b, infix_write_joins joins⟩
  · intro entry name within gives s
    obtain ⟨merged, ran, -⟩ := mergeEntry_gives gives s
    exact ⟨merged, ran⟩
  · intro i tag name has gives ran part member filled
    obtain ⟨opened, opens, inside⟩ := infix_write_tag has ran
    refine ⟨(openTag_gives gives opens member filled).trans inside, ?_⟩
    cases settings.escapeAttributes with
    | true => simp [Markup.escapeChars_eq_iff]
    | false => simp

/-- A safe text with markup, as an output and as an attribute. -/
theorem write_safe_bracket :
    let c := (Context.new .echo).bind "e" (.text "a <b>" true)
    let written (i : Instruction) := write .variables Options.standard.renderSettings c i .empty
    let tag : CompiledTag := ⟨"p", .empty, [.dynamic "t" (.expression "e")], false, false⟩
    written (.output 1 "e" true 1) = written (.interpolated 1 [.literal "a <b>"] true 1) ∧
      "a <b>".toList <:+: (written (.output 1 "e" true 1)).2.text ∧
      StandsIn "t" "a &lt;b&gt;".toList (written (.element 0 tag .empty 1)).2.text := by
  intro c written tag
  have given : Evaluator.variables.evaluate "e" c = .ok (.text "a <b>" true) := rfl
  obtain ⟨content, -, attributes⟩ :=
    write_safe .variables c "a <b>" Options.standard.renderSettings .empty
  have joins : (Instruction.output 1 "e" true 1).Joins .variables c "a <b>"
      (.interpolated 1 [.literal "a <b>"] true 1) := .output given
  have gives : tag.Gives .variables c "a <b>" "t" :=
    ⟨[], _, [], [], rfl, .expression given, List.forall_mem_nil _⟩
  obtain ⟨same, lines⟩ := content _ _ joins
  have done : (written (.output 1 "e" true 1)).1 = .ok () := by decide +kernel
  have ran : (written (.element 0 tag .empty 1)).1 = .ok () := by decide +kernel
  exact ⟨same, lines done _ (by decide),
    (attributes _ _ "t" rfl gives ran "a <b>".toList (by decide) (by decide)).1⟩

end Render

/-- A safe text is escaped in an attribute, and in no other place where texts are. -/
theorem Template.safe_text_escaped :
    let c := (Context.new .echo).bind "e" (.text "<b>" true)
    let shown (source : String) :=
      (Template.compile source { Options.standard with escapeHtml := true }).map
        fun t => (t.run .variables c).1
    shown "%p\x7b:t => e\x7d= e" = .ok (.ok "<p t='&lt;b&gt;'><b></p>\n") := by
  decide +kernel

end Haml
