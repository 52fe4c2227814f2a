import Haml.Proofs.Indented
import Haml.Proofs.Redrawn
import Haml.Proofs.Styles
import Haml.Proofs.Verbatim
import Mathlib.Data.List.DropRight
/-! Output lines and interpolated lines: what `= e` writes beside `#{e}`, and `%p= e` beside
`%p #{e}`, for one expression and every value of it. -/

namespace Haml

namespace Text

theorem trimEnd_cons_of_visible {c : Char} (seen : isBlank c = false) (cs : List Char) :
    trimEnd (c :: cs) = c :: trimEnd cs := by
  simp only [trimEnd_eq_rdropWhile, List.rdropWhile]
  rw [List.reverse_cons, List.dropWhile_append]
  split
  · next absent =>
      rw [List.isEmpty_iff.mp absent, List.dropWhile_cons_of_neg (by simp [seen])]
      rfl
  · rw [List.reverse_append]
    rfl

theorem trimEnd_append_of_filled {cs : List Char} (filled : trimEnd cs ≠ []) (front : List Char) :
    trimEnd (front ++ cs) = front ++ trimEnd cs := by
  have given : (cs.reverse.dropWhile isBlank).isEmpty = false := by
    rw [List.isEmpty_eq_false_iff]
    exact mt List.reverse_eq_nil_iff.mpr filled
  simp only [trimEnd_eq_rdropWhile, List.rdropWhile]
  rw [List.reverse_append, List.dropWhile_append, given, if_neg Bool.false_ne_true,
    List.reverse_append, List.reverse_reverse]

theorem trimStart_trimEnd (cs : List Char) : trimStart (trimEnd cs) = trimEnd (trimStart cs) := by
  induction cs with
  | nil => rfl
  | cons c cs ih =>
      by_cases blank : isBlank c = true
      · have start (cs : List Char) : trimStart (c :: cs) = trimStart cs :=
          List.dropWhile_cons_of_pos blank
        rw [start, ← ih]
        by_cases empty : trimEnd cs = []
        · have all := List.rdropWhile_eq_nil_iff.mp empty
          have whole : trimEnd (c :: cs) = [] :=
            List.rdropWhile_eq_nil_iff.mpr (List.forall_mem_cons.mpr ⟨blank, all⟩)
          rw [whole, empty]
        · rw [← List.singleton_append, trimEnd_append_of_filled empty, List.singleton_append, start]
      · have start (cs : List Char) : trimStart (c :: cs) = c :: cs :=
          List.dropWhile_cons_of_neg blank
        rw [start, trimEnd_cons_of_visible (Bool.eq_false_iff.mpr blank), start]

theorem trim_trimEnd (cs : List Char) : trim (trimEnd cs) = trim cs := by
  have twice : trimEnd (trimEnd (trimStart cs)) = trimEnd (trimStart cs) :=
    List.rdropWhile_idempotent _ _
  rw [trim, trimStart_trimEnd, twice, trim]

theorem trim_cons_of_isBlank {c : Char} (blank : isBlank c = true) (cs : List Char) :
    trim (c :: cs) = trim cs := by
  rw [trim, trimStart, List.dropWhile_cons_of_pos blank, trim, trimStart]

theorem dropSuffix?_append (sep cs : List Char) : dropSuffix? sep (cs ++ sep) = some cs :=
  List.isSuffixOf?_eq_some_iff_append_eq.mpr rfl

theorem length_splitOn (cs : List Char) :
    (cs.splitOn '\n').length = cs.count '\n' + 1 := by
  induction cs with
  | nil => rfl
  | cons c cs ih =>
      by_cases newline : c = '\n'
      · subst newline
        simp [List.splitOn_cons_eq_if_modifyHead, ih]
      · simp [List.splitOn_cons_eq_if_modifyHead, newline, ih]

theorem newlines_suffix {cs : List Char} :
    ['\n', '\n'] <:+ cs ++ ['\n'] ↔ cs.getLast? = some '\n' := by
  rw [List.getLast?_eq_some_iff]
  constructor
  · rintro ⟨before, same⟩
    have both : cs ++ ['\n'] = before ++ ['\n'] ++ ['\n'] := by
      rw [← same, List.append_assoc]
      rfl
    exact ⟨before, List.append_cancel_right both⟩
  · rintro ⟨before, rfl⟩
    exact ⟨before, by rw [List.append_assoc]; rfl⟩

end Text

namespace Markup

theorem count_entity (c : Char) : (entity c).count '\n' = [c].count '\n' := by
  unfold entity
  split <;> rfl

theorem count_escapeChars (cs : List Char) : (escapeChars cs).count '\n' = cs.count '\n' := by
  induction cs with
  | nil => rfl
  | cons c cs ih =>
      have first : escapeChars (c :: cs) = entity c ++ escapeChars cs := rfl
      have whole : c :: cs = [c] ++ cs := rfl
      rw [first, whole, List.count_append, List.count_append, count_entity, ih]

theorem getLast?_entity (c : Char) : (entity c).getLast? = some '\n' ↔ c = '\n' := by
  unfold entity
  split <;> simp

theorem getLast?_escapeChars (cs : List Char) :
    (escapeChars cs).getLast? = some '\n' ↔ cs.getLast? = some '\n' := by
  induction cs using List.reverseRecOn with
  | nil => rfl
  | append_singleton cs c =>
      have last : escapeChars (cs ++ [c]) = escapeChars cs ++ entity c := by
        simp [escapeChars]
      have filled : entity c ≠ [] := by
        unfold entity
        split <;> simp
      rw [last, List.getLast?_append_of_ne_nil _ filled, getLast?_entity]
      simp

end Markup

namespace Render

variable (escape : Bool) (v : Value)

theorem written_newline (cs : List Char) :
    written escape v (cs ++ ['\n']) = written escape v cs ++ ['\n'] := by
  unfold written
  split
  · exact List.flatMap_append
  · rfl

theorem mem_written (cs : List Char) : '\n' ∈ written escape v cs ↔ '\n' ∈ cs := by
  unfold written
  split
  · rw [← List.count_pos_iff, Markup.count_escapeChars, List.count_pos_iff]
  · rfl

theorem getLast?_written (cs : List Char) :
    (written escape v cs).getLast? = some '\n' ↔ cs.getLast? = some '\n' := by
  unfold written
  split
  · exact Markup.getLast?_escapeChars cs
  · rfl

end Render

namespace Buffer

def height (b : Buffer) : Nat := b.text.count '\n'

theorem height_line (depth : Nat) (raw : List Char) (b : Buffer) :
    (b.line depth raw).height = b.height + raw.count '\n' + 1 := by
  have indent : (if b.glued || raw.isEmpty then [] else List.replicate (2 * depth) ' ').count '\n'
      = 0 := by
    split
    · rfl
    · exact List.count_eq_zero.mpr fun member => by cases List.eq_of_mem_replicate member
  simp only [height, line, List.count_append, indent]
  rfl

theorem height_foldl_line (depth : Nat) {pieces : List (List Char)}
    (whole : ∀ raw ∈ pieces, '\n' ∉ raw) (b : Buffer) :
    (pieces.foldl (fun b raw => b.line depth raw) b).height = b.height + pieces.length := by
  induction pieces generalizing b with
  | nil => rfl
  | cons raw pieces ih =>
      obtain ⟨here, others⟩ := List.forall_mem_cons.mp whole
      rw [List.foldl_cons, ih others, height_line, List.count_eq_zero.mpr here, List.length_cons]
      omega

theorem height_lines (depth : Nat) {raw body : List Char}
    (dropped : (Text.dropSuffix? ['\n'] raw).getD raw = body) (b : Buffer) :
    (b.lines depth raw).height = b.height + if body.isEmpty then 0 else body.count '\n' + 1 := by
  rw [lines, dropped]
  split
  · rfl
  · rw [height_foldl_line depth fun _ => Text.not_mem_of_mem_splitOn, Text.length_splitOn]

theorem lines_newline {raw : List Char} (unended : raw.getLast? ≠ some '\n') (depth : Nat)
    (b : Buffer) : b.lines depth (raw ++ ['\n']) = b.lines depth raw := by
  rw [lines, lines, Text.dropSuffix?_append, Text.dropSuffix?_singleton unended]
  rfl

theorem height_lines_newline {raw : List Char} (ended : raw.getLast? = some '\n') (depth : Nat)
    (b : Buffer) : (b.lines depth raw).height < (b.lines depth (raw ++ ['\n'])).height := by
  obtain ⟨body, rfl⟩ := List.getLast?_eq_some_iff.mp ended
  have dropped (cs : List Char) :
      (Text.dropSuffix? ['\n'] (cs ++ ['\n'])).getD (cs ++ ['\n']) = cs := by
    rw [Text.dropSuffix?_append]
    rfl
  rw [height_lines depth (dropped body), height_lines depth (dropped (body ++ ['\n']))]
  have filled : (body ++ ['\n']).isEmpty = false := by simp
  rw [filled, if_neg Bool.false_ne_true, List.count_append]
  split <;> simp

end Buffer

namespace Render

theorem writeElement_newline (settings : RenderSettings) (depth : Nat) {tag : CompiledTag}
    (untrimmed : tag.trimInner = false) (opened raw : List Char) (b : Buffer) :
    let write (inner : List Char) := writeElement settings depth tag opened (some inner) b
    ('\n' ∈ raw ∧ raw.getLast? ≠ some '\n' → write raw = write (raw ++ ['\n'])) ∧
      ((write raw).height = (write (raw ++ ['\n'])).height →
        '\n' ∈ raw ∧ raw.getLast? ≠ some '\n') := by
  have several : (raw ++ ['\n']).contains '\n' = true := by simp
  simp only [writeElement, untrimmed, Bool.not_false, Bool.and_true, several, if_true]
  constructor
  · rintro ⟨inside, unended⟩
    have contains : raw.contains '\n' = true := List.contains_iff_mem.mpr inside
    rw [if_pos contains, Buffer.lines_newline unended]
  · intro same
    by_cases contains : raw.contains '\n' = true
    · refine ⟨List.contains_iff_mem.mp contains, fun ended => ?_⟩
      rw [if_pos contains, Buffer.height_line, Buffer.height_line] at same
      have more := Buffer.height_lines_newline ended (depth + 1) (b.line depth (opened ++ ['>']))
      omega
    · have outside : raw.count '\n' = 0 :=
        List.count_eq_zero.mpr fun member => contains (List.contains_iff_mem.mpr member)
      have unended : raw.getLast? ≠ some '\n' := fun ended =>
        contains (List.contains_iff_mem.mpr (List.mem_of_getLast? ended))
      rw [if_neg contains, Buffer.lines_newline unended] at same
      simp only [Buffer.height_line, List.count_append, outside] at same
      have grown : (b.line depth (opened ++ ['>'])).height ≤
          ((b.line depth (opened ++ ['>'])).lines (depth + 1) raw).height := by
        rw [Buffer.height_lines (depth + 1) rfl]
        omega
      rw [Buffer.height_line, List.count_append] at grown
      omega

theorem steps_singleton {e : Evaluator} {id : String} {settings : RenderSettings} {i : Instruction}
    (writes : i.Writes) (previous : Branch) (p : Progress) :
    steps e id settings [i] previous p =
      ((write e settings p.context i p.buffer).1.mapError (locate id i),
        ⟨p.context, (write e settings p.context i p.buffer).2⟩) := by
  rw [steps, step_eq_write writes]
  cases (write e settings p.context i p.buffer).1 <;> rfl

/-- Whether two runs come to the same if `agree` holds, and write different texts if it does not. -/
def SameIff (agree : Prop) (x y : Except Error Unit × Progress) : Prop :=
  (agree → x = y) ∧ (x.2.buffer.text = y.2.buffer.text → agree)

theorem SameIff.of_eq {agree : Prop} {x y : Except Error Unit × Progress} (same : x = y)
    (holds : agree) : SameIff agree x y := ⟨fun _ => same, fun _ => holds⟩

theorem SameIff.congr {agree other : Prop} {x y : Except Error Unit × Progress}
    (same : SameIff agree x y) (equivalent : agree ↔ other) : SameIff other x y :=
  ⟨fun holds => same.1 (equivalent.mpr holds), fun texts => equivalent.mp (same.2 texts)⟩

section

variable (e : Evaluator) (id : String) (settings : RenderSettings) (p : Progress) (depth line : Nat)
  (code : String) (escape : Bool)

/-- An output and an interpolation of one expression write the same lines unless its text ends in two
line ends. -/
theorem sameIff_output_interpolated :
    SameIff (∀ v, e.evaluate code p.context = .ok v → ¬ ['\n', '\n'] <:+ v.shown.toList)
      (steps e id settings [.output depth code escape line] .idle p)
      (steps e id settings [.interpolated depth [.expression code] escape line] .idle p) := by
  rw [steps_singleton (by intro _ _ _ same; cases same),
    steps_singleton (by intro _ _ _ same; cases same)]
  cases found : e.evaluate code p.context with
  | error failure =>
      refine .of_eq ?_ fun v found => by cases found
      simp only [write, output, interpolate, segment, found, bind, Except.bind]
      rfl
  | ok v =>
      simp only [write, output, interpolate, segment, found, bind, Except.bind, pure, Except.pure,
        writeWith, List.append_nil, Except.ok.injEq, forall_eq']
      by_cases last : v.shown.toList.getLast? = some '\n'
      · obtain ⟨text, whole⟩ := List.getLast?_eq_some_iff.mp last
        rw [whole, Text.dropSuffix?_append, Option.getD_some, written_newline,
          Text.newlines_suffix]
        by_cases ended : text.getLast? = some '\n'
        · have more := Buffer.height_lines_newline ((getLast?_written escape v text).mpr ended)
            depth p.buffer
          refine ⟨absurd ended, fun same => ?_⟩
          exact absurd (congrArg (List.count '\n') same) (Nat.ne_of_lt more)
        · refine .of_eq ?_ ended
          rw [Buffer.lines_newline (mt (getLast?_written escape v text).mp ended)]
          rfl
      · have absent : ¬ ['\n', '\n'] <:+ v.shown.toList := by
          rintro ⟨text, whole⟩
          rw [← whole] at last
          simp at last
        refine .of_eq ?_ absent
        rw [Text.dropSuffix?_singleton last]
        rfl

/-- An output that is left out is no line, and an empty text is. -/
theorem sameIff_none_empty :
    SameIff False (steps e id settings [] .idle p)
      (steps e id settings [.text depth ""] .idle p) := by
  refine ⟨False.elim, fun same => ?_⟩
  rw [steps_singleton (by intro _ _ _ same; cases same)] at same
  have grown := Buffer.height_line depth [] p.buffer
  have unchanged : p.buffer.height = (p.buffer.line depth []).height :=
    congrArg (List.count '\n') same
  omega

/-- In an element, a text that ends in a line end stands on lines of its own where it is interpolated,
and as an output only if it has another line end before. -/
theorem sameIff_element {tag : CompiledTag} (outer : tag.trimOuter = false)
    (inner : tag.trimInner = false) {opened : List Char}
    (opens : openTag e p.context settings tag = .ok opened) :
    SameIff (∀ v, e.evaluate code p.context = .ok v → ['\n'] <:+ v.shown.toList →
        '\n' ∈ v.shown.toList.dropLast ∧ ¬ ['\n', '\n'] <:+ v.shown.toList)
      (steps e id settings [.element depth tag (.output code escape) line] .idle p)
      (steps e id settings
        [.element depth tag (.interpolated [.expression code] escape) line] .idle p) := by
  rw [steps_singleton (by intro _ _ _ same; cases same),
    steps_singleton (by intro _ _ _ same; cases same)]
  simp only [write, outer, opens, content, output, interpolate, segment, bind, Except.bind, pure,
    Except.pure]
  cases e.evaluate code p.context with
  | error failure => exact .of_eq rfl fun v found => by cases found
  | ok v =>
      simp only [Functor.map, Except.map, List.append_nil, Except.ok.injEq, forall_eq', glueIf,
        Bool.false_eq_true, if_false]
      by_cases last : v.shown.toList.getLast? = some '\n'
      · obtain ⟨text, whole⟩ := List.getLast?_eq_some_iff.mp last
        obtain ⟨same, agrees⟩ := writeElement_newline settings depth inner opened
          (written escape v text) p.buffer
        rw [whole, Text.dropSuffix?_append, Option.getD_some, written_newline,
          Text.newlines_suffix, List.dropLast_concat]
        refine ⟨fun holds => ?_, fun texts _ => ?_⟩
        · obtain ⟨inside, unended⟩ := holds (List.suffix_append text ['\n'])
          have equal := same ⟨(mem_written escape v text).mpr inside,
            mt (getLast?_written escape v text).mp unended⟩
          exact congrArg (fun b => (Except.ok (), Progress.mk p.context b)) equal
        · obtain ⟨inside, unended⟩ := agrees (congrArg (List.count '\n') texts)
          exact ⟨(mem_written escape v text).mp inside,
            mt (getLast?_written escape v text).mpr unended⟩
      · have absent : ¬ ['\n'] <:+ v.shown.toList := by
          rintro ⟨text, whole⟩
          rw [← whole] at last
          simp at last
        refine .of_eq ?_ fun ended => absurd ended absent
        rw [Text.dropSuffix?_singleton last]
        rfl

end

end Render

namespace Interpolation

theorem split_expression {code : List Char}
    (closes : closingBrace (code ++ ['}']) = some (code, [])) :
    split ('#' :: '{' :: (code ++ ['}'])) =
      some [.expression (String.ofList (Text.trim code))] := by
  rw [split, splitFrom]
  split
  · next unclosed =>
      rw [closes] at unclosed
      cases unclosed
  · next body after closed =>
      rw [closes] at closed
      cases closed
      rw [splitFrom]
      rfl

end Interpolation

namespace Compile

variable (o : Options) (line : Nat)

theorem textParts_expression {code : List Char}
    (closes : Interpolation.closingBrace (code ++ ['}']) = some (code, [])) :
    textParts o (String.ofList ('#' :: '{' :: (code ++ ['}']))) line =
      .ok (if o.suppressEval then .fixed ""
        else .interpolated [.expression (String.ofList (Text.trim code))]) := by
  have marked : (Text.splitOnce ['#', '{'] ('#' :: '{' :: (code ++ ['}']))).isNone = false := rfl
  rw [textParts, String.toList_ofList, marked, if_neg Bool.false_ne_true,
    Interpolation.split_expression closes]
  cases o.suppressEval <;> rfl

end Compile

namespace Line

def output (number depth : Nat) (code : List Char) : Line :=
  ⟨number, depth, Text.trimEnd ("= ".toList ++ code)⟩

def interpolated (number depth : Nat) (code : List Char) : Line :=
  ⟨number, depth, ['#', '{'] ++ code ++ ['}']⟩

def outputElement (number depth : Nat) (code : List Char) : Line :=
  ⟨number, depth, Text.trimEnd ("%p= ".toList ++ code)⟩

def interpolatedElement (number depth : Nat) (code : List Char) : Line :=
  ⟨number, depth, "%p ".toList ++ ['#', '{'] ++ code ++ ['}']⟩

def compile (l : Line) (o : Options) (unit : Option Indent) (below : List (List Char))
    (depth : Nat) : Except Error (List Instruction) := do
  let header ← Header.read unit l below
  Compile.node o depth ⟨header.kind, l.number, []⟩

section

variable (o : Options) (unit : Option Indent) (below : List (List Char)) (number level depth : Nat)
  (code : List Char)

theorem compile_output :
    (output number level code).compile o unit below depth =
      .ok (if o.suppressEval then []
        else [.output depth (String.ofList (Text.trim code)) o.escapeHtml number]) := by
  have read : Header.read unit (output number level code) below =
      .ok ⟨.output (String.ofList (Text.trim code)) .standard, 0, unit⟩ := by
    have text : (output number level code).text = '=' :: Text.trimEnd (' ' :: code) :=
      Text.trimEnd_cons_of_visible rfl (' ' :: code)
    rw [Header.read, sigil, text, Sigil.classify]
    simp only [Header.output, List.drop_one, List.tail_cons]
    rw [Text.trim_trimEnd, Text.trim_cons_of_isBlank rfl]
  rw [compile, read]
  simp only [bind, Except.bind, Compile.node]
  rfl

theorem compile_interpolated
    (closes : Interpolation.closingBrace (code ++ ['}']) = some (code, [])) :
    (interpolated number level code).compile o unit below depth =
      .ok [if o.suppressEval then .text depth ""
        else .interpolated depth [.expression (String.ofList (Text.trim code))] o.escapeHtml
          number] := by
  have read : Header.read unit (interpolated number level code) below =
      .ok ⟨.text (String.ofList ('#' :: '{' :: (code ++ ['}']))), 0, unit⟩ := rfl
  rw [compile, read]
  simp only [bind, Except.bind, Compile.node, Compile.textLine, Compile.textParts_expression o
    number closes, interpolated]
  cases o.suppressEval <;> rfl

def paragraph (content : Option InlineContent) : Tag := ⟨"p", [], false, false, false, content⟩

def compiledParagraph : CompiledTag := ⟨"p", .empty, [], false, false⟩

theorem compile_paragraph {tail : List Char} {content : InlineContent}
    (ends : Tag.Ends tail (some content)) (unmarked : tail.takeWhile Tag.isModifier = []) :
    compile ⟨number, level, '%' :: 'p' :: tail⟩ o unit below depth = do
      let inner ← Compile.content o (paragraph (some content)) number
      return [.element depth compiledParagraph inner number] := by
  have named : Tag.IsOpening (some ['p']) := by
    rintro n ⟨⟩
    exact ⟨nofun, List.all_eq_true.mp rfl⟩
  have tag : Tag.read number ('%' :: 'p' :: tail) below = .ok (paragraph (some content), below) := by
    have opened : Tag.read number ('%' :: 'p' :: tail) below =
        Tag.ended number (some ['p']) [] tail (some content) below :=
      Tag.read_shorthands number named (List.forall_mem_nil _) ends
    rw [opened, Tag.ended, unmarked]
    rfl
  have read : Header.read unit ⟨number, level, '%' :: 'p' :: tail⟩ below =
      .ok ⟨.tag (paragraph (some content)), 0, unit⟩ := by
    rw [Header.read, sigil, Sigil.classify]
    simp only [tag, bind, Except.bind, Nat.sub_self]
    rfl
  rw [compile, read]
  rfl

theorem compile_outputElement :
    (outputElement number level code).compile o unit below depth =
      .ok [.element depth compiledParagraph
        (if o.suppressEval then .empty else .output (String.ofList (Text.trim code)) o.escapeHtml)
        number] := by
  have text : outputElement number level code =
      ⟨number, level, '%' :: 'p' :: '=' :: Text.trimEnd (' ' :: code)⟩ := by
    rw [← Text.trimEnd_cons_of_visible rfl, ← Text.trimEnd_cons_of_visible rfl,
      ← Text.trimEnd_cons_of_visible rfl]
    rfl
  have ends : Tag.Ends ('=' :: Text.trimEnd (' ' :: code))
      (some (.output (String.ofList (Text.trim code)) .standard)) := by
    rw [← Text.trim_cons_of_isBlank (c := ' ') rfl, ← Text.trim_trimEnd]
    rfl
  rw [text, compile_paragraph o unit below number level depth ends rfl]
  rfl

theorem compile_interpolatedElement
    (closes : Interpolation.closingBrace (code ++ ['}']) = some (code, [])) :
    (interpolatedElement number level code).compile o unit below depth =
      .ok [.element depth compiledParagraph
        (if o.suppressEval then .text ""
          else .interpolated [.expression (String.ofList (Text.trim code))] o.escapeHtml)
        number] := by
  have ends : Tag.Ends (' ' :: '#' :: '{' :: (code ++ ['}']))
      (some (.text (String.ofList ('#' :: '{' :: (code ++ ['}']))))) := by
    have trimmed : Text.trim (' ' :: '#' :: '{' :: (code ++ ['}'])) =
        '#' :: '{' :: (code ++ ['}']) := by
      rw [Text.trim_cons_of_isBlank rfl]
      exact Text.trimEnd_of_blank ('#' :: '{' :: code) rfl (List.forall_mem_nil _)
    have content (cs : List Char) : Tag.inlineContent? (' ' :: cs) =
        let text := Text.trim (' ' :: cs)
        some (if text.isEmpty then none else some (.text (String.ofList text))) := rfl
    refine (content _).trans ?_
    rw [trimmed]
    rfl
  have compiled := compile_paragraph o unit below number level depth ends rfl
  simp only [Compile.content, paragraph, Compile.textParts_expression o number closes] at compiled
  have text : interpolatedElement number level code =
      ⟨number, level, '%' :: 'p' :: ' ' :: '#' :: '{' :: (code ++ ['}'])⟩ := rfl
  rw [text, compiled]
  cases o.suppressEval <;> rfl

end

section

variable (o : Options) (e : Evaluator) (unit : Option Indent) (below : List (List Char))
  (depth : Nat)

/-- What a line does to an output. -/
def perform (l : Line) (p : Render.Progress) :
    Except Error (Except Error Unit × Render.Progress) := do
  let is ← l.compile o unit below depth
  return Render.steps e o.templateId o.renderSettings is .idle p

variable {code : List Char}

open Render (SameIff)

/-- The two ways of writing an expression agree but for its line ends and where no code is run:
whatever it comes to, `= e` writes what `#{e}` does exactly if code is run and the text of the value
does not end in two line ends, and `%p= e` what `%p #{e}` does exactly if no code is run or the text
does not end in a line end, or in only one and has another before. -/
theorem perform_expression (closes : Interpolation.closingBrace (code ++ ['}']) = some (code, []))
    (number level : Nat) (p : Render.Progress) :
    let value := e.evaluate (String.ofList (Text.trim code)) p.context
    (∃ x y, (output number level code).perform o e unit below depth p = .ok x ∧
      (interpolated number level code).perform o e unit below depth p = .ok y ∧
      SameIff (o.suppressEval = false ∧
        ∀ v, value = .ok v → ¬ ['\n', '\n'] <:+ v.shown.toList) x y) ∧
    ∃ x y, (outputElement number level code).perform o e unit below depth p = .ok x ∧
      (interpolatedElement number level code).perform o e unit below depth p = .ok y ∧
      SameIff (o.suppressEval = false → ∀ v, value = .ok v → ['\n'] <:+ v.shown.toList →
        '\n' ∈ v.shown.toList.dropLast ∧ ¬ ['\n', '\n'] <:+ v.shown.toList) x y := by
  simp only [perform, compile_output, compile_outputElement,
    compile_interpolated o unit below number level depth code closes,
    compile_interpolatedElement o unit below number level depth code closes,
    bind, Except.bind, pure, Except.pure]
  refine ⟨⟨_, _, rfl, rfl, ?_⟩, _, _, rfl, rfl, ?_⟩
  · cases o.suppressEval with
    | true => exact (Render.sameIff_none_empty e _ _ p depth).congr (by simp)
    | false =>
        exact (Render.sameIff_output_interpolated e _ _ p depth number _ _).congr
          ⟨fun holds => ⟨rfl, holds⟩, And.right⟩
  · cases o.suppressEval with
    | true =>
        refine .of_eq ?_ nofun
        rw [Render.steps_singleton (by intro _ _ _ same; cases same),
          Render.steps_singleton (by intro _ _ _ same; cases same)]
        rfl
    | false =>
        have opens : Render.openTag e p.context o.renderSettings compiledParagraph =
            .ok "<p".toList := rfl
        exact (Render.sameIff_element e _ _ p depth number _ _ rfl rfl opens).congr
          ⟨fun holds _ => holds, fun holds => holds rfl⟩

end

end Line

def Evaluator.variables : Evaluator :=
  ⟨fun code c => .ok ((c.lookup code).getD .undefined), fun _ => .ok (),
    fun _ c _ _ => .done (.ok .idle) c⟩

def Context.holding (text : String) : Context := (Context.new .echo).bind "e" (.ofString text)

theorem Line.perform_expression_lines :
    let p : Render.Progress := ⟨.holding "a\nb\n", .empty⟩
    (∃ x, (output 1 0 ['e']).perform .standard .variables none [] 0 p = .ok x ∧
      (interpolated 1 0 ['e']).perform .standard .variables none [] 0 p = .ok x) ∧
    ∃ x, (outputElement 1 0 ['e']).perform .standard .variables none [] 0 p = .ok x ∧
      (interpolatedElement 1 0 ['e']).perform .standard .variables none [] 0 p = .ok x := by
  have closes : Interpolation.closingBrace (['e'] ++ ['}']) = some (['e'], []) := rfl
  have value : ∀ v, Evaluator.variables.evaluate (String.ofList (Text.trim ['e']))
      (.holding "a\nb\n") = .ok v → v = .ofString "a\nb\n" := by
    rintro v ⟨⟩
    rfl
  obtain ⟨⟨x, y, ran, ranOther, same⟩, z, w, inside, insideOther, alike⟩ :=
    perform_expression .standard .variables none [] 0 closes 1 0 ⟨.holding "a\nb\n", .empty⟩
  constructor
  · have equal : x = y := same.1 ⟨rfl, fun v found => by rw [value v found]; decide⟩
    exact ⟨x, ran, equal ▸ ranOther⟩
  · have equal : z = w := alike.1 fun _ v found _ => by rw [value v found]; decide
    exact ⟨z, inside, equal ▸ insideOther⟩

/-- A line end that the value brings puts an interpolation on lines of its own. -/
theorem Template.interpolated_apart :
    (Template.compile "%p= e" .standard).map (fun t => (t.run .variables (.holding "a\n")).1) =
      .ok (.ok "<p>a</p>\n") ∧
    (Template.compile "%p #\x7be\x7d" .standard).map
        (fun t => (t.run .variables (.holding "a\n")).1) =
      .ok (.ok "<p>\n  a\n</p>\n") := by
  decide +kernel

end Haml
