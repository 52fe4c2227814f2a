import Haml.Proofs.Emission
import Haml.Proofs.Interpolated
/-! Content: what stands in the line of a tag, and the same in a line of its own that is nested in
the tag. A text of several lines comes out the same in both places. -/

namespace Haml

namespace InlineContent

/-- The node that content is in a line of its own. -/
def kind : InlineContent → NodeKind
  | text raw => .text raw
  | output code escaping => .output code escaping

/-- The text that is evaluated for content, before any of it is escaped; none where nothing is
evaluated, or the evaluation fails. The values in a text are taken as they are, and one line end at
the end of an output counts for nothing. -/
def evaluated (o : Options) (line : Nat) (e : Evaluator) (c : Context) :
    InlineContent → Option (List Char)
  | text raw =>
      match Compile.textParts o raw line with
      | .ok (.interpolated segments) => (Render.interpolate e c false segments).toOption
      | _ => none
  | output code _ =>
      if o.suppressEval then none
      else
        match e.evaluate code c with
        | .ok v => some ((Text.dropSuffix? ['\n'] v.shown.toList).getD v.shown.toList)
        | .error _ => none

end InlineContent

namespace Header

variable {tail : List Char} {content : InlineContent}

/-- What is content behind a tag is a node of its own in a line of its own, if nothing but text is
made of a text there. -/
theorem read_content (inside : Tag.inlineContent? tail = some (some content))
    (plain : ∀ raw, content = .text raw → Sigil.classify raw.toList = .plain)
    (unit : Option Indent) (number level : Nat) (below : List (List Char)) :
    Header.read unit ⟨number, level, Text.trim tail⟩ below = .ok ⟨content.kind, 0, unit⟩ := by
  have shown (code : List Char) (c : Char) (seen : Text.isBlank c = false) :
      Text.trim (c :: code) = c :: Text.trimEnd code := by
    rw [Text.trim, Text.trimStart, List.dropWhile_cons_of_neg (by simp [seen]),
      Text.trimEnd_cons_of_visible seen]
  have marked (code : List Char) (c : Char) (seen : Text.isBlank c = false) :
      Text.trim (c :: '=' :: code) = c :: '=' :: Text.trimEnd code := by
    rw [shown _ c seen, Text.trimEnd_cons_of_visible rfl]
  unfold Tag.inlineContent? at inside
  split at inside
  · cases inside
  · next code =>
      cases inside
      rw [marked code '!' rfl, Header.read]
      simp only [Line.sigil, Sigil.classify, output, List.drop_succ_cons, List.drop_zero,
        Text.trim_trimEnd]
      rfl
  · next code =>
      cases inside
      rw [marked code '&' rfl, Header.read]
      simp only [Line.sigil, Sigil.classify, output, List.drop_succ_cons, List.drop_zero,
        Text.trim_trimEnd]
      rfl
  · next code =>
      cases inside
      rw [shown code '=' rfl, Header.read]
      simp only [Line.sigil, Sigil.classify, output, List.drop_succ_cons, List.drop_zero,
        Text.trim_trimEnd]
      rfl
  · next c cs _ _ _ =>
      split at inside
      · obtain same := Option.some.inj inside
        split at same
        · cases same
        · cases same
          have isText := plain _ rfl
          rw [String.toList_ofList] at isText
          simp only [Header.read, Line.sigil, isText]
          rfl
      · cases inside

end Header

namespace Compile

variable {o : Options} {raw : String} {line : Nat}

theorem textParts_elsewhere {parts : TextParts} (read : textParts o raw line = .ok parts)
    (other : Nat) : textParts o raw other = .ok parts := by
  unfold textParts at read ⊢
  split at read
  · next plain =>
      rw [if_pos plain]
      exact read
  · next marked =>
      rw [if_neg marked]
      split at read
      · cases read
      · exact read

end Compile

namespace Render

variable {e : Evaluator} {c : Context} {text : List Char}

theorem interpolate_escaped {segments : List Segment}
    (plain : interpolate e c false segments = .ok text) (escape : Bool) :
    ∃ escaped, interpolate e c escape segments = .ok escaped ∧ ('\n' ∈ escaped ↔ '\n' ∈ text) := by
  induction segments generalizing text with
  | nil =>
      cases plain
      exact ⟨[], rfl, Iff.rfl⟩
  | cons s rest ih =>
      obtain ⟨first, here, others⟩ := bind_ok plain
      obtain ⟨more, later, done⟩ := bind_ok others
      cases done
      obtain ⟨last, ran, alike⟩ := ih later
      have start : ∃ escaped, segment e c escape s = .ok escaped ∧
          ('\n' ∈ escaped ↔ '\n' ∈ first) := by
        cases s with
        | literal raw => exact ⟨first, here, Iff.rfl⟩
        | expression code =>
            obtain ⟨v, value, done⟩ := bind_ok here
            cases done
            refine ⟨written escape v v.shown.toList, ?_, ?_⟩
            · rw [segment, value]
              rfl
            · rw [mem_written, mem_written]
      obtain ⟨escaped, ran', same⟩ := start
      refine ⟨escaped ++ last, ?_, ?_⟩
      · rw [interpolate, ran', ran]
        rfl
      · rw [List.mem_append, List.mem_append, same, alike]

/-- An element with content of several lines does what its tags do around an instruction that writes
this content one level deeper. -/
theorem steps_element_content (id : String) (settings : RenderSettings) {p : Progress}
    {tag : CompiledTag} (untrimmed : tag.trimInner = false) {inner : ElementContent}
    {i : Instruction} (inside : content e p.context inner = .ok (some text)) (several : '\n' ∈ text)
    {depth : Nat} (writes : i.Writes)
    (same : ∀ b, write e settings p.context i b = (.ok (), b.lines (depth + 1) text))
    (line : Nat) (rest : List Instruction) (previous : Branch) :
    steps e id settings (.element depth tag inner line :: rest) previous p =
      steps e id settings (.openTag depth tag line :: i ::
        .closeTag depth tag.name false tag.trimOuter :: rest) previous p := by
  rw [steps, step_eq_write (by intro _ _ _ same; cases same), steps,
    step_eq_write (by intro _ _ _ same; cases same)]
  simp only [write]
  cases openTag e p.context settings tag with
  | error failure => rfl
  | ok opened =>
      have long : text.contains '\n' = true := by simpa using several
      simp only [inside, bind, Except.bind, pure, Except.pure, writeElement, long, untrimmed,
        Bool.not_false, Bool.and_self, if_true, writeWith, Except.map]
      rw [steps, step_eq_write writes, same]
      simp only [Except.map]
      rw [steps, step_eq_write (by intro _ _ _ same; cases same)]
      rfl

end Render

namespace Compile

variable {o : Options} {t : Tag} {line : Nat}

theorem tag_content (content : Option InlineContent) :
    tag o { t with content := content } line = tag o t line := rfl

/-- Content that is evaluated is an instruction in each of its two places, and both write the same
text. -/
theorem content_evaluated {content : InlineContent} {e : Evaluator} {c : Context}
    {text : List Char} (evaluated : content.evaluated o line e c = some text)
    (depth next : Nat) :
    ∃ inner i escaped,
      Compile.content o { t with content := some content } line = .ok inner ∧
      node o depth ⟨content.kind, next, []⟩ = .ok [i] ∧ i.Writes ∧
      Render.content e c inner = .ok (some escaped) ∧ ('\n' ∈ escaped ↔ '\n' ∈ text) ∧
      ∀ settings b, Render.write e settings c i b = (.ok (), b.lines depth escaped) := by
  cases content with
  | text raw =>
      simp only [InlineContent.evaluated] at evaluated
      split at evaluated
      · next segments read =>
          have plain : Render.interpolate e c false segments = .ok text := by
            cases ran : Render.interpolate e c false segments with
            | error failure => simp [ran, Except.toOption] at evaluated
            | ok found => simpa [ran, Except.toOption] using evaluated
          obtain ⟨escaped, ran, same⟩ := Render.interpolate_escaped plain o.escapeHtml
          refine ⟨.interpolated segments o.escapeHtml,
            .interpolated depth segments o.escapeHtml next, escaped, ?_, ?_, ?_, ?_, same, ?_⟩
          · simp only [Compile.content, read]
            rfl
          · simp only [InlineContent.kind, node, textLine, textParts_elsewhere read next]
            rfl
          · intro _ _ _ same
            cases same
          · rw [Render.content, ran]
            rfl
          · intro settings b
            rw [Render.write, ran]
            rfl
      · cases evaluated
  | output code escaping =>
      simp only [InlineContent.evaluated] at evaluated
      split at evaluated
      · cases evaluated
      · next runs =>
          split at evaluated
          · next v value =>
              have ran : Render.output e c code (escapes o escaping) =
                  .ok (Render.written (escapes o escaping) v text) := by
                obtain rfl := Option.some.inj evaluated
                rw [Render.output, value]
                rfl
              refine ⟨.output code (escapes o escaping),
                .output depth code (escapes o escaping) next, _, ?_, ?_, ?_, ?_,
                Render.mem_written (escapes o escaping) v text, ?_⟩
              · simp only [Compile.content, if_neg runs]
              · rw [InlineContent.kind, node, if_neg runs]
              · intro _ _ _ same
                cases same
              · rw [Render.content, ran]
                rfl
              · intro settings b
                rw [Render.write, ran]
                rfl
          · cases evaluated

end Compile

/-- Content of several lines comes out the same in the line of its tag and in a line of its own that
is nested in the tag, whatever comes after it and whatever stands in the output before it; and such a
line is read as the node that the content is. -/
theorem Node.steps_nested_content (o : Options) (e : Evaluator) (id : String)
    (settings : RenderSettings) {t : Tag} (untrimmed : t.trimInner = false)
    {content : InlineContent} {p : Render.Progress} {text : List Char} {line : Nat}
    (evaluated : content.evaluated o line e p.context = some text) (several : '\n' ∈ text)
    (depth next : Nat) :
    let inline := Compile.node o depth ⟨.tag { t with content := some content }, line, []⟩
    let nested := Compile.node o depth
      ⟨.tag { t with content := none }, line, [⟨content.kind, next, []⟩]⟩
    ((∃ failure, inline = .error failure ∧ nested = .error failure) ∨
      ∃ is js, inline = .ok is ∧ nested = .ok js ∧ ∀ rest previous,
        Render.steps e id settings (is ++ rest) previous p =
          Render.steps e id settings (js ++ rest) previous p) ∧
    ∀ tail, Tag.inlineContent? tail = some (some content) →
      (∀ raw, content = .text raw → Sigil.classify raw.toList = .plain) →
      ∀ unit number level below, Header.read unit ⟨number, level, Text.trim tail⟩ below =
        .ok ⟨content.kind, 0, unit⟩ := by
  refine ⟨?_, fun tail inside plain unit number level below =>
    Header.read_content inside plain unit number level below⟩
  obtain ⟨inner, i, escaped, inside, below, writes, shown, same, written⟩ :=
    Compile.content_evaluated (t := t) evaluated (depth + 1) next
  simp only [Compile.node, Compile.tag_content, List.isEmpty_nil, List.isEmpty_cons, inside]
  cases made : Compile.tag o t line with
  | error failure => exact .inl ⟨failure, rfl, rfl⟩
  | ok compiled =>
      obtain ⟨name, trimmed, outer⟩ := Compile.tag_keeps made
      refine .inr ⟨[.element depth compiled inner line],
        [.openTag depth compiled line, i, .closeTag depth t.name t.trimInner t.trimOuter],
        rfl, ?_, fun rest previous => ?_⟩
      · have depths : Compile.innerDepth { t with content := none } depth = depth + 1 := by
          rw [Compile.innerDepth, if_neg (by simp [untrimmed])]
        simp only [bind, Except.bind, Compile.nodes, depths, below]
        rfl
      · rw [untrimmed, ← name, ← outer]
        exact Render.steps_element_content id settings (trimmed.trans untrimmed) shown
          (same.mpr several) writes (written settings) line rest previous

theorem Node.steps_nested_lines :
    let content : InlineContent := .output "e" .standard
    let p : Render.Progress := ⟨.holding "a\n\nb\n", .empty⟩
    content.evaluated .standard 1 .variables p.context = some "a\n\nb".toList ∧
      ∃ is js,
        Compile.node .standard 0 ⟨.tag (Line.paragraph (some content)), 1, []⟩ = .ok is ∧
        Compile.node .standard 0
          ⟨.tag (Line.paragraph none), 1, [⟨content.kind, 2, []⟩]⟩ = .ok js ∧
        ∀ rest previous,
          Render.steps .variables "t" Options.standard.renderSettings (is ++ rest) previous p =
            Render.steps .variables "t" Options.standard.renderSettings (js ++ rest) previous p := by
  intro content p
  have evaluated : content.evaluated .standard 1 .variables p.context =
      some "a\n\nb".toList := by decide +kernel
  refine ⟨evaluated, ?_⟩
  obtain ⟨⟨failure, refused, -⟩ | found, -⟩ :=
    Node.steps_nested_content .standard .variables "t" Options.standard.renderSettings
      (t := Line.paragraph none) rfl evaluated (by decide) 0 2
  · cases refused
  · exact found

/-- A text with a line end in what its expression stands for, beside `>` and with a text behind. -/
example :
    (Template.compile "%i\n%p> x #\x7be\x7d\ny" .standard).map
        (fun t => (t.run .variables (.holding "a\n\nb\n")).1) =
      (Template.compile "%i\n%p>\n  x #\x7be\x7d\ny" .standard).map
        (fun t => (t.run .variables (.holding "a\n\nb\n")).1) := by
  decide +kernel

end Haml
