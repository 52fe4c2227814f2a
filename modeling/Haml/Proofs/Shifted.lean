import Haml.Proofs.Indented
import Haml.Proofs.Outcome
import Haml.Proofs.Redrawn
/-! Shifted instructions: a run of them, below lines that stand above, writes the output of the run of
those they come from, indented. What is written in one line must be one, and nothing may be trimmed
away but what these instructions have written. -/

namespace Haml

open Text (visible visible_append)

def Instruction.shifted : Instruction → Instruction
  | .text depth raw => .text (depth + 1) raw
  | .interpolated depth segments escape line => .interpolated (depth + 1) segments escape line
  | .output depth code escape line => .output (depth + 1) code escape line
  | .element depth tag content line => .element (depth + 1) tag content line
  | .openTag depth tag line => .openTag (depth + 1) tag line
  | .closeTag depth name trimInner trimOuter => .closeTag (depth + 1) name trimInner trimOuter
  | .script code line body => .script code line body
  | .filter depth name convert raw line => .filter (depth + 1) name convert raw line

namespace Instruction

theorem redraws_shifted : Redraws shifted where
  writes i writes code line body same := by
    cases i with
    | script code line body => exact absurd rfl (writes code line body)
    | _ => cases same
  line i _ := by cases i <;> rfl

def shows : Instruction → Bool
  | .text _ raw => !(visible raw.toList).isEmpty
  | .element .. | .openTag .. | .closeTag .. => true
  | .interpolated .. | .output .. | .script .. | .filter .. => false

mutual

/-- Whether an instruction can be shifted: `seen` if something visible has been written before it, so
that there is something to trim up to. -/
inductive Fits : Bool → Instruction → Prop
  | text {seen : Bool} {depth : Nat} {raw : String} : '\n' ∉ raw.toList → Fits seen (.text depth raw)
  | interpolated {seen : Bool} {depth : Nat} {segments : List Segment} {escape : Bool} {line : Nat} :
      Fits seen (.interpolated depth segments escape line)
  | output {seen : Bool} {depth : Nat} {code : String} {escape : Bool} {line : Nat} :
      Fits seen (.output depth code escape line)
  | element {seen : Bool} {depth : Nat} {tag : CompiledTag} {content : ElementContent} {line : Nat} :
      '\n' ∉ tag.name.toList → tag.trimInner = false → (tag.trimOuter = true → seen = true) →
      Fits seen (.element depth tag content line)
  | openTag {seen : Bool} {depth : Nat} {tag : CompiledTag} {line : Nat} :
      '\n' ∉ tag.name.toList → tag.trimInner = false → (tag.trimOuter = true → seen = true) →
      Fits seen (.openTag depth tag line)
  | closeTag {seen : Bool} {depth : Nat} {name : String} {trimOuter : Bool} :
      '\n' ∉ name.toList → Fits seen (.closeTag depth name false trimOuter)
  | script {seen : Bool} {code : String} {line : Nat} {body : List Instruction} :
      FitAll seen body → Fits seen (.script code line body)
  | filter {seen : Bool} {depth : Nat} {name raw : String} {convert : Filter} {line : Nat} :
      Fits seen (.filter depth name convert raw line)

inductive FitAll : Bool → List Instruction → Prop
  | nil {seen : Bool} : FitAll seen []
  | cons {seen : Bool} {i : Instruction} {rest : List Instruction} :
      Fits seen i → FitAll (seen || i.shows) rest → FitAll seen (i :: rest)

end

mutual

theorem Fits.mono {seen : Bool} {i : Instruction} : Fits seen i → Fits true i
  | .text whole => .text whole
  | .interpolated => .interpolated
  | .output => .output
  | .element whole inner _ => .element whole inner fun _ => rfl
  | .openTag whole inner _ => .openTag whole inner fun _ => rfl
  | .closeTag whole => .closeTag whole
  | .script body => .script body.mono
  | .filter => .filter

theorem FitAll.mono {seen : Bool} {is : List Instruction} : FitAll seen is → FitAll true is
  | .nil => .nil
  | .cons first rest => .cons first.mono rest.mono

end

theorem FitAll.or {seen : Bool} {is : List Instruction} (fit : FitAll seen is) (more : Bool) :
    FitAll (seen || more) is := by
  cases more with
  | false => rwa [Bool.or_false]
  | true =>
      rw [Bool.or_true]
      exact fit.mono

theorem FitAll.append {seen : Bool} {is others : List Instruction} (first : FitAll seen is)
    (rest : FitAll seen others) : FitAll seen (is ++ others) := by
  induction is generalizing seen with
  | nil => exact rest
  | cons i is ih =>
      cases first with
      | cons here later => exact .cons here (ih later (rest.or i.shows))

theorem FitAll.enclosed {seen : Bool} {start stop : Instruction} {inner : List Instruction}
    (first : Fits seen start) (shows : start.shows = true) (inside : FitAll true inner)
    (last : Fits true stop) : FitAll seen (start :: inner ++ [stop]) := by
  refine .cons first ?_
  rw [shows, Bool.or_true]
  exact inside.append (.cons last .nil)

end Instruction

namespace Render

open Instruction (Fits FitAll shifted)

variable {e : Evaluator} {id : String} {settings : RenderSettings}

theorem visible_elementText_ne_nil (settings : RenderSettings) (name : String) (opened : List Char)
    (inner : Option (List Char)) : visible (elementText settings name opened inner) ≠ [] := by
  refine Text.visible_ne_nil (c := '>') ?_ rfl
  cases inner with
  | none => cases html : settings.html <;> simp [elementText, html]
  | some inner => simp [elementText, endTag]

/-- What an instruction writes comes after the visible characters that stand there. -/
theorem exists_visible_write (e : Evaluator) (settings : RenderSettings) (i : Instruction)
    (c : Context) (b : Buffer) :
    ∃ more, visible (write e settings c i b).2.text = visible b.text ++ more ∧
      (i.shows = true → (write e settings c i b).1 = .ok () → more ≠ []) := by
  have written (text : Except Error (List Char)) (depth : Nat) :
      ∃ more, visible (writeWith b text fun text => b.lines depth text).2.text =
        visible b.text ++ more := by
    cases text with
    | error e => exact ⟨[], (List.append_nil _).symm⟩
    | ok text => exact ⟨_, Buffer.visible_lines depth text b⟩
  cases i with
  | text depth raw =>
      refine ⟨_, Buffer.visible_line depth raw.toList b, fun shows _ silent => ?_⟩
      rw [Instruction.shows, silent] at shows
      cases shows
  | interpolated depth segments escape line =>
      obtain ⟨more, same⟩ := written (interpolate e c escape segments) depth
      exact ⟨more, same, nofun⟩
  | output depth code escape line =>
      obtain ⟨more, same⟩ := written (output e c code escape) depth
      exact ⟨more, same, nofun⟩
  | filter depth name convert raw line =>
      obtain ⟨more, same⟩ :=
        written ((String.toList <$> convert raw).mapError (filterError name)) depth
      exact ⟨more, same, nofun⟩
  | script code line body => exact ⟨[], (List.append_nil _).symm, nofun⟩
  | closeTag depth name trimInner trimOuter =>
      refine ⟨visible (endTag name), ?_, fun _ _ => Text.visible_ne_nil (c := '>') ?_ rfl⟩
      · simp only [write, visible_glueIf, Buffer.visible_line]
      · simp [endTag]
  | openTag depth tag line =>
      simp only [write]
      cases openTag e c settings tag with
      | error e => exact ⟨[], by simp [writeWith, visible_glueIf], nofun⟩
      | ok opened =>
          refine ⟨visible (opened ++ ['>']), ?_, fun _ _ => Text.visible_ne_nil (c := '>') ?_ rfl⟩
          · simp only [writeWith, visible_glueIf, Buffer.visible_line]
          · simp
  | element depth tag inner line =>
      simp only [write]
      generalize (do
        let opened ← openTag e c settings tag
        return (opened, ← content e c inner) : Except Error _) = parts
      cases parts with
      | error e => exact ⟨[], by simp [visible_glueIf], nofun⟩
      | ok parts =>
          refine ⟨_, ?_, fun _ _ => visible_elementText_ne_nil settings tag.name parts.1 parts.2⟩
          simp only [visible_glueIf, visible_writeElement]

theorem seen_write {i : Instruction} {c : Context} {b : Buffer} (seen : b.Seen) :
    (write e settings c i b).2.Seen := by
  obtain ⟨more, same, -⟩ := exists_visible_write e settings i c b
  rw [Buffer.Seen, same]
  exact List.append_ne_nil_of_left_ne_nil seen more

theorem seen_step {i : Instruction} {previous branch : Branch} {p q : Progress}
    (ran : step e id settings i previous p = (.ok branch, q)) (shows : i.shows = true) :
    q.buffer.Seen := by
  have writes : i.Writes := by
    rintro code line body rfl
    cases shows
  obtain ⟨more, same, filled⟩ := exists_visible_write e settings i p.context p.buffer
  rw [step_eq_write writes] at ran
  cases done : (write e settings p.context i p.buffer).1 with
  | error e =>
      rw [done] at ran
      cases ran
  | ok _ =>
      rw [done] at ran
      cases ran
      rw [Buffer.Seen, same]
      exact List.append_ne_nil_of_right_ne_nil _ (filled shows done)

/-- A run of instructions that fit comes to instructions that do, with what it has written. -/
theorem Reaches.fits {is : List Instruction} {previous : Branch} {p q : Progress} {i : Instruction}
    (reaches : Reaches e id settings is previous p i q) {seen : Bool} (fit : FitAll seen is)
    (start : seen = true → p.buffer.Seen) :
    ∃ now, Fits now i ∧ (now = true → q.buffer.Seen) := by
  have writes : ∀ i c (b : Buffer), b.Seen →
      (write e settings c i b).2.Seen := fun _ _ _ seen => seen_write seen
  induction reaches generalizing seen with
  | here =>
      cases fit with
      | cons here _ => exact ⟨seen, here, start⟩
  | @inside code line body rest previous p q c b i calls _ ih =>
      cases fit with
      | cons here _ =>
          cases here with
          | script fitBody =>
              have block := fun c b => steps_keeps e id settings writes body .idle ⟨c, b⟩
              exact ih fitBody fun seen => calls.keeps (I := Buffer.Seen) block (start seen)
  | @later i j rest previous branch p q r ran _ ih =>
      cases fit with
      | cons _ rest =>
          refine ih rest fun seen => ?_
          rcases Bool.or_eq_true_iff.mp seen with before | shows
          · have after := step_keeps e id settings writes i previous p (start before)
            rw [ran] at after
            exact after
          · exact seen_step ran shows

end Render

def Instruction.tag? : Instruction → Option CompiledTag
  | .element _ tag _ _ | .openTag _ tag _ => some tag
  | _ => none

/-- Whether the names and values of a tag's attributes hold no line feeds, as they come to be in a
context. -/
def CompiledTag.OneLine (tag : CompiledTag) (e : Evaluator) (c : Context) : Prop :=
  ∀ set, tag.computed.foldlM (Render.mergeEntry e c) tag.attributes = .ok set →
    ∀ entry ∈ set.entries, '\n' ∉ entry.1.toList ∧
      ∀ value, entry.2 = .text value → '\n' ∉ value.toList

namespace AttributeSet

theorem not_mem_escapeChars {cs : List Char} (whole : '\n' ∉ cs) :
    '\n' ∉ Markup.escapeChars cs := by
  intro member
  obtain ⟨c, inside, among⟩ := List.mem_flatMap.mp member
  unfold Markup.entity at among
  split at among
  · revert among
    decide
  · revert among
    decide
  · revert among
    decide
  · revert among
    decide
  · revert among
    decide
  · obtain rfl := List.mem_singleton.mp among
    exact whole inside

theorem quoteFor_ne {wrapper : Char} (plain : wrapper ≠ '\n') (text : List Char) :
    quoteFor wrapper text ≠ '\n' := by
  unfold quoteFor
  split
  · split <;> decide
  · exact plain

theorem not_mem_writeEntry {wrapper : Char} (plain : wrapper ≠ '\n') (escape : Bool)
    {entry : String × AttributeValue} (named : '\n' ∉ entry.1.toList)
    (valued : ∀ value, entry.2 = .text value → '\n' ∉ value.toList) :
    '\n' ∉ writeEntry wrapper escape entry := by
  obtain ⟨name, value⟩ := entry
  cases value with
  | flag value =>
      cases value with
      | false => exact List.not_mem_nil
      | true => simpa [writeEntry] using named
  | text value =>
      have text : '\n' ∉ (if escape then Markup.escapeChars value.toList else value.toList) := by
        split
        · exact not_mem_escapeChars (valued value rfl)
        · exact valued value rfl
      have quote := quoteFor_ne plain (if escape then Markup.escapeChars value.toList else value.toList)
      simp only [writeEntry, List.mem_cons, List.mem_append, List.not_mem_nil, or_false, not_or]
      exact ⟨⟨⟨by decide, named⟩, by decide, quote.symm, text⟩, quote.symm⟩

theorem not_mem_write {s : AttributeSet} {wrapper : Char} (plain : wrapper ≠ '\n') (escape : Bool)
    (whole : ∀ entry ∈ s.entries, '\n' ∉ entry.1.toList ∧
      ∀ value, entry.2 = .text value → '\n' ∉ value.toList) :
    '\n' ∉ (s.write wrapper escape).toList := by
  rw [write, String.toList_ofList]
  intro member
  obtain ⟨entry, among, inside⟩ := List.mem_flatMap.mp member
  obtain ⟨named, valued⟩ := whole entry among
  exact not_mem_writeEntry plain escape named valued inside

end AttributeSet

namespace Render

open Instruction (Fits FitAll shifted)
open Buffer (Indented)

variable {e : Evaluator} {settings : RenderSettings}

theorem not_mem_openTag {tag : CompiledTag} {c : Context} {opened : List Char}
    (whole : '\n' ∉ tag.name.toList) (attributes : tag.OneLine e c)
    (wrapper : settings.attributeWrapper ≠ '\n') (ok : openTag e c settings tag = .ok opened) :
    '\n' ∉ opened := by
  obtain ⟨set, merged, done⟩ := bind_ok ok
  cases done
  have written := AttributeSet.not_mem_write wrapper settings.escapeAttributes
    (attributes set merged)
  simp [whole, written]

variable {above : List Char} {b b' : Buffer}

theorem glueIf_indented (indented : Indented above b b') {trim : Bool} (seen : trim = true → b.Seen) :
    Indented above (glueIf trim b) (glueIf trim b') := by
  cases trim with
  | true => exact indented.glue (seen rfl)
  | false => exact indented

theorem endTag_whole {name : String} (whole : '\n' ∉ name.toList) : '\n' ∉ endTag name := by
  simp [endTag, whole]

theorem writeElement_indented (settings : RenderSettings) (indented : Indented above b b')
    (depth : Nat) {tag : CompiledTag} (untrimmed : tag.trimInner = false)
    (named : '\n' ∉ tag.name.toList) {opened : List Char} (whole : '\n' ∉ opened)
    (inner : Option (List Char)) :
    Indented above (writeElement settings depth tag opened inner b)
      (writeElement settings (depth + 1) tag opened inner b') := by
  cases inner with
  | none =>
      refine indented.line depth ?_
      cases settings.html <;> simp [whole]
  | some inner =>
      rw [writeElement, writeElement, untrimmed]
      split
      · have single : '\n' ∉ opened ++ ['>'] := by simp [whole]
        have first := indented.line depth single
        exact (first.lines (depth + 1) inner).line depth (endTag_whole named)
      · next single =>
          have plain : '\n' ∉ inner := by simpa using single
          exact indented.line depth (by simp [whole, plain, endTag_whole named])

theorem seen_line {c : Char} {depth : Nat} {raw : List Char} (member : c ∈ raw)
    (seen : Text.isBlank c = false) (b : Buffer) : (b.line depth raw).Seen := by
  rw [Buffer.Seen, Buffer.visible_line]
  exact List.append_ne_nil_of_right_ne_nil _ (Text.visible_ne_nil member seen)

/-- What fits is written one level deeper as it is indented. -/
theorem redrawable_shifted {seen : Bool} {i : Instruction} {p : Progress} (fits : Fits seen i)
    (start : seen = true → p.buffer.Seen) (wrapper : settings.attributeWrapper ≠ '\n')
    (attributes : ∀ tag ∈ i.tag?, tag.OneLine e p.context) :
    Redrawable e settings shifted (Indented above) i p := by
  intro _ b indented
  cases fits with
  | text whole => exact ⟨rfl, indented.line _ whole⟩
  | interpolated | output | filter =>
      exact writeWith_related indented _ fun text _ => indented.lines _ text
  | script _ => exact ⟨rfl, indented⟩
  | @closeTag _ depth name trimOuter whole =>
      refine ⟨rfl, glueIf_indented (indented.line depth (endTag_whole whole)) fun _ => ?_⟩
      exact seen_line (c := '>') (by simp [endTag]) rfl _
  | @openTag _ depth tag line whole untrimmed outer =>
      have before := glueIf_indented indented fun trims => start (outer trims)
      refine writeWith_related before _ fun opened ok => ?_
      have single := not_mem_openTag whole (attributes tag rfl) wrapper ok
      rw [untrimmed]
      exact before.line depth (by simp [single])
  | @element _ depth tag inner line whole untrimmed outer =>
      have before := glueIf_indented indented fun trims => start (outer trims)
      simp only [write, shifted]
      cases opens : openTag e p.context settings tag with
      | error e => exact ⟨rfl, before⟩
      | ok opened =>
          cases content e p.context inner with
          | error e => exact ⟨rfl, before⟩
          | ok inner =>
              have single := not_mem_openTag whole (attributes tag rfl) wrapper opens
              have written := writeElement_indented settings before depth untrimmed whole single inner
              refine ⟨rfl, glueIf_indented written fun _ => ?_⟩
              rw [Buffer.Seen, visible_writeElement]
              have shown := visible_elementText_ne_nil settings tag.name opened inner
              exact List.append_ne_nil_of_right_ne_nil _ shown

end Render

end Haml
