import Haml.Compile
import Haml.Filter.Registry
import Haml.Partial
import Haml.Proofs.Printing
import Mathlib.Data.List.TakeWhile
/-! Verbatim text: the lines under a filter that changes nothing, from the source they are printed in
to the output, however deep the filter stands. -/

namespace Haml

section Text

namespace Text

theorem getLast?_intercalate {lines : List (List Char)} {last : List Char} (filled : last ≠ [])
    (ends : lines.getLast? = some last) :
    (List.intercalate ['\n'] lines).getLast? = last.getLast? := by
  induction lines with
  | nil => cases ends
  | cons raw lines ih =>
      cases lines with
      | nil =>
          obtain rfl : raw = last := Option.some.inj ends
          rw [List.intercalate_singleton]
      | cons next lines =>
          have rest : (List.intercalate ['\n'] (next :: lines)).getLast? = last.getLast? := ih ends
          have given : List.intercalate ['\n'] (next :: lines) ≠ [] := by
            intro absent
            rw [absent] at rest
            exact filled (List.getLast?_eq_none_iff.mp rest.symm)
          rw [List.intercalate_cons_cons,
            List.getLast?_append_of_ne_nil _ given]
          exact rest

theorem dropSuffix?_singleton {c : Char} {cs : List Char} (last : cs.getLast? ≠ some c) :
    dropSuffix? [c] cs = none := by
  unfold dropSuffix?
  rw [Option.map_eq_none_iff]
  cases reversed : cs.reverse with
  | nil => rfl
  | cons d rest =>
      have final : cs.getLast? = some d := by
        rw [← List.head?_reverse, reversed]
        rfl
      have other : (c == d) = false := by
        refine beq_eq_false_iff_ne.mpr ?_
        rintro rfl
        exact last final
      simp [List.isPrefixOf?, other]

def ended (lines : List (List Char)) : List Char := lines.flatMap (· ++ ['\n'])

theorem ended_append (lines others : List (List Char)) :
    ended (lines ++ others) = ended lines ++ ended others := List.flatMap_append ..

end Text

end Text

namespace Line

variable {u : Indent} {unit : Option Indent} {depth next : Nat} {body below : List (List Char)}

theorem blockLines_blanks (lead : List Char) (k : Nat) (below : List (List Char)) :
    blockLines lead (List.replicate k [] ++ below) =
      List.replicate k [] ++ blockLines lead below := by
  induction k with
  | zero => rfl
  | succ k ih =>
      rw [List.replicate_succ, List.cons_append, blockLines, ih]
      rfl

theorem dropBlankEnd_blanks (k : Nat) {lines : List (List Char)} (filled : dropBlankEnd lines ≠ []) :
    dropBlankEnd (List.replicate k [] ++ lines) = List.replicate k [] ++ dropBlankEnd lines := by
  have given : (lines.reverse.dropWhile List.isEmpty).isEmpty = false := by
    rw [List.isEmpty_eq_false_iff]
    intro absent
    exact filled (by rw [dropBlankEnd, absent, List.reverse_nil])
  rw [dropBlankEnd, List.reverse_append, List.dropWhile_append, given, if_neg Bool.false_ne_true,
    List.reverse_append, List.reverse_reverse, dropBlankEnd]

theorem takeBlock_blanks {block : Block} {k : Nat}
    (taken : takeBlock unit depth (next + k) below = .ok block) (filled : block.lines ≠ []) :
    takeBlock unit depth next (List.replicate k [] ++ below) =
      .ok ⟨List.replicate k [] ++ block.lines, k + block.taken, block.unit⟩ := by
  have blank : ∀ raw ∈ List.replicate k ([] : List Char), Text.allBlank raw = true := by
    intro raw member
    obtain rfl := List.eq_of_mem_replicate member
    rfl
  unfold takeBlock at taken ⊢
  rw [List.dropWhile_append_of_pos blank, List.takeWhile_append_of_pos blank, List.length_append,
    List.length_replicate, ← Nat.add_assoc]
  cases found : below.dropWhile Text.allBlank with
  | nil =>
      rw [found] at taken
      cases taken
      exact absurd rfl filled
  | cons first others =>
      rw [found] at taken
      simp only at taken ⊢
      split at taken
      · cases taken
        exact absurd rfl filled
      · next indented =>
          rw [if_neg indented]
          obtain ⟨⟨measured, settled⟩, measures, taken⟩ := bind_ok taken
          rw [measures]
          simp only [bind, Except.bind] at taken ⊢
          split at taken
          · cases taken
            exact absurd rfl filled
          · next deeper =>
              rw [if_neg deeper]
              split at taken
              · cases taken
              · next level =>
                  cases taken
                  rw [if_neg level, blockLines_blanks, dropBlankEnd_blanks k filled,
                    List.length_append, List.length_replicate]
                  rfl

/-- The lines of a text that a filter is given as they are: those of white space are empty, and of
the others the first is not indented and the last ends the text. -/
structure IsVerbatim (body : List (List Char)) : Prop where
  whole : ∀ raw ∈ body, '\n' ∉ raw ∧ raw.getLast? ≠ some '\r'
  blank : ∀ raw ∈ body, Text.allBlank raw = true → raw = []
  first : ∀ raw ∈ body.find? fun raw => !raw.isEmpty, ∀ c ∈ raw.head?, Text.isIndent c = false
  last : ∃ raw, body.getLast? = some raw ∧ raw ≠ []

/-- Verbatim lines are the lines of a raw block, with empty ones above them. -/
theorem IsVerbatim.split (verbatim : IsVerbatim body) :
    ∃ k block, body = List.replicate k [] ++ block ∧ IsBody block ∧ block ≠ [] := by
  obtain ⟨whole, blank, first, raw, last, filled⟩ := verbatim
  have above : body.takeWhile List.isEmpty =
      List.replicate (body.takeWhile List.isEmpty).length [] := by
    refine List.eq_replicate_of_mem fun other member => ?_
    exact List.isEmpty_iff.mp (List.mem_takeWhile_imp member)
  have parts : body = List.replicate (body.takeWhile List.isEmpty).length [] ++
      body.dropWhile List.isEmpty := by
    rw [← above, List.takeWhile_append_dropWhile]
  have suffix := List.dropWhile_suffix (l := body) List.isEmpty
  have given : body.dropWhile List.isEmpty ≠ [] := by
    intro absent
    have empty := List.dropWhile_eq_nil_iff.mp absent raw (List.mem_of_getLast? last)
    exact filled (List.isEmpty_iff.mp empty)
  refine ⟨_, _, parts, ⟨?_, ?_, ?_, ?_⟩, given⟩
  · exact fun other member => whole other (suffix.mem member)
  · exact fun other member => blank other (suffix.mem member)
  · intro other head
    have found : body.find? (fun raw => !raw.isEmpty) = Option.some other :=
      (body.find?_not_eq_head?_dropWhile List.isEmpty).trans head
    have visible : other ≠ [] := by simpa using List.find?_some found
    obtain ⟨c, cs, rfl⟩ := List.exists_cons_of_ne_nil visible
    exact ⟨c, rfl, first (c :: cs) found c rfl⟩
  · intro other final
    rw [parts, List.getLast?_append_of_ne_nil _ given, Option.mem_def.mp final] at last
    cases last
    exact filled

end Line

/-! An element in an element, as deep as `d`, and a filter in the innermost one. -/

namespace Verbatim

variable {u : Indent} {depth d : Nat} {body : List (List Char)}

def div : Tag := ⟨"div", [], false, false, false, none⟩

def compiledDiv : CompiledTag := ⟨"div", .empty, [], false, false⟩

def stairs (u : Indent) (line : List Char) (depth d : Nat) : List (List Char) :=
  (List.range' depth d).map fun i => u.lead i ++ line

theorem stairs_succ (u : Indent) (line : List Char) (depth d : Nat) :
    stairs u line depth (d + 1) = (u.lead depth ++ line) :: stairs u line (depth + 1) d := rfl

def lines (u : Indent) (depth d : Nat) (body : List (List Char)) : List (List Char) :=
  stairs u "%div".toList depth d ++ (u.lead (depth + d) ++ ":plain".toList) ::
    body.map (Line.inBlock u (depth + d + 1))

theorem lines_zero (u : Indent) (depth : Nat) (body : List (List Char)) :
    lines u depth 0 body =
      (u.lead depth ++ ":plain".toList) :: body.map (Line.inBlock u (depth + 1)) := rfl

def source (u : Indent) (d : Nat) (body : List (List Char)) : String :=
  String.ofList (List.intercalate ['\n'] (lines u 0 d body))

/-- The lines of the output: the tags of the nested elements around the text, where each level is
indented by two spaces. -/
def written (depth d : Nat) (body : List (List Char)) : List (List Char) :=
  stairs (.spaces 2) "<div>".toList depth d ++ body.map (Line.inBlock (.spaces 2) (depth + d)) ++
    (stairs (.spaces 2) "</div>".toList depth d).reverse

def output (d : Nat) (body : List (List Char)) : String :=
  String.ofList (Text.ended (written 0 d body))

/-- The tree of a node in nested elements, the first of which stands on line `number`. -/
def nest (number : Nat) : Nat → Node → Node
  | 0, inner => inner
  | d + 1, inner => ⟨.tag div, number, [nest (number + 1) d inner]⟩

def text (body : List (List Char)) : String := String.ofList (List.intercalate ['\n'] body)

def leaf (line : Nat) (body : List (List Char)) : Node := ⟨.filter "plain" (text body), line, []⟩

theorem alone_div : Header.alone "%div".toList = .ok ⟨.tag div, 0, none⟩ := by
  simp [Header.alone, Header.read, Line.sigil, Sigil.classify, Tag.read, Tag.takeName,
    Tag.takeShorthands, Tag.takeLists, Tag.inlineContent?, Tag.isNameChar, bind, Except.bind, pure,
    Except.pure, div]

theorem isText_div : Line.IsText "%div".toList := ⟨by decide, ⟨'%', rfl, rfl⟩, by rintro c ⟨⟩; rfl⟩

theorem isText_plain : Line.IsText ":plain".toList :=
  ⟨by decide, ⟨':', rfl, rfl⟩, by rintro c ⟨⟩; rfl⟩

theorem readLines_leaf (wide : Indent.Wide (some u)) (verbatim : Line.IsVerbatim body)
    {unit : Option Indent} (fits : Indent.Fits u unit depth) {o : Outline} (admits : o.Admits depth)
    (number : Nat) :
    Document.readLines unit o number 0 (lines u depth 0 body) =
      .ok ((o.closeTo depth).push (leaf number body)).finish := by
  obtain ⟨k, block, rfl, isBody, filled⟩ := verbatim.split
  obtain ⟨first, read, settled⟩ : ∃ first, Line.read unit number (u.lead depth ++ ":plain".toList) =
      .ok (⟨number, depth, ":plain".toList⟩, first) ∧ Indent.Settled u first depth :=
    Line.read_lead wide fits isText_plain
  obtain ⟨more, later, taken, -, -⟩ :=
    isBody.takeBlock wide .nil settled (number + 1 + k)
  have whole := Line.takeBlock_blanks taken filled
  have printed : List.replicate k [] ++ (block.map (Line.inBlock u (depth + 1)) ++ []) =
      (List.replicate k [] ++ block).map (Line.inBlock u (depth + 1)) := by
    rw [List.append_nil, List.map_append, List.map_replicate]
    rfl
  rw [printed] at whole
  have plain : Header.alone ":plain".toList = .ok ⟨.filter "plain" "", 0, none⟩ := rfl
  have among : Header.among first number depth
      ((List.replicate k [] ++ block).map (Line.inBlock u (depth + 1))) (.filter "plain" "") =
      .ok ⟨.filter "plain" (text (List.replicate k [] ++ block)), k + (block.length + more),
        later⟩ := by
    rw [Header.among, whole]
    rfl
  have absent : ((List.replicate k [] ++ block).map (Line.inBlock u (depth + 1))).drop
      (k + (block.length + more)) = [] := by
    refine List.drop_eq_nil_of_le ?_
    simp only [List.length_map, List.length_append, List.length_replicate]
    omega
  rw [lines_zero, Plan.readLines_among isText_plain plain admits read among, absent]
  rfl

theorem lines_succ (u : Indent) (depth d : Nat) (body : List (List Char)) :
    lines u depth (d + 1) body = (u.lead depth ++ "%div".toList) :: lines u (depth + 1) d body := by
  have shifted : depth + (d + 1) = depth + 1 + d := by omega
  rw [lines, stairs_succ, shifted, lines, List.cons_append]

/-- Lines of nested elements are read from the outermost one on, each as the parent of the next. -/
theorem readLines_nest (wide : Indent.Wide (some u)) (verbatim : Line.IsVerbatim body)
    {unit : Option Indent} (fits : Indent.Fits u unit depth) {o : Outline} (admits : o.Admits depth)
    (number : Nat) :
    Document.readLines unit o number 0 (lines u depth d body) =
      .ok ((o.closeTo depth).attach [nest number d (leaf (number + d) body)]).finish := by
  induction d generalizing depth unit o number with
  | zero => rw [readLines_leaf wide verbatim fits admits, Outline.finish_push, nest, Nat.add_zero]
  | succ d ih =>
      have empty : Line.IsBody [] := ⟨nofun, nofun, nofun, nofun⟩
      have allowed : (NodeKind.tag div).nestingFault? = none := rfl
      have shallow : (NodeKind.tag div).nestingFault? ≠ none →
          Line.Shallow u depth (lines u (depth + 1) d body) := absurd allowed
      obtain ⟨settled, settles, first⟩ := Plan.readLines_header wide isText_div alone_div empty
        (absurd rfl) fits admits shallow number
      have rest := ih settles.fits (admits.push (n := ⟨.tag div, number, []⟩) allowed) (number + 1)
      have shifted : number + 1 + d = number + (d + 1) := by omega
      rw [List.map_nil, List.nil_append] at first
      rw [lines_succ, first]
      calc Document.readLines settled ((o.closeTo depth).push ⟨.tag div, number, []⟩) (number + 1) 0
              (lines u (depth + 1) d body)
          = .ok (((o.closeTo depth).push ⟨.tag div, number, []⟩).attach
              [nest (number + 1) d (leaf (number + 1 + d) body)]).finish := by
            rw [rest, admits.closeTo_push]
        _ = .ok ((o.closeTo depth).attach
              [nest number (d + 1) (leaf (number + (d + 1)) body)]).finish := by
            rw [Outline.attach_push, Outline.finish_push, shifted, nest]

theorem isLine_lines (verbatim : Line.IsVerbatim body) :
    ∀ raw ∈ lines u depth d body, Plan.IsLine raw := by
  intro raw member
  rcases List.mem_append.mp member with stair | member
  · obtain ⟨i, -, rfl⟩ := List.mem_map.mp stair
    exact Plan.isLine_lead ⟨isText_div.whole, by decide⟩ isText_div.starts.ne_nil
  rcases List.mem_cons.mp member with rfl | block
  · exact Plan.isLine_lead ⟨isText_plain.whole, by decide⟩ isText_plain.starts.ne_nil
  · obtain ⟨line, among, rfl⟩ := List.mem_map.mp block
    exact Plan.isLine_inBlock (verbatim.whole line among)

/-- The source is one tree: the nested elements, and in the innermost the filter with its text. -/
theorem read_source (wide : Indent.Wide (some u)) (verbatim : Line.IsVerbatim body)
    {unit : IndentUnit} (chosen : Indent.Fits u (Indent.preset unit) 0) (d : Nat) :
    Document.read unit (source u d body) = .ok [nest 1 d (leaf (1 + d) body)] := by
  have admits : Outline.empty.Admits 0 := ⟨Nat.zero_le _, nofun⟩
  rw [Document.read, source, String.toList_ofList, Document.readLines_print (isLine_lines verbatim),
    readLines_nest wide verbatim chosen admits]
  rfl

def emitted (body : List (List Char)) : Nat → Nat → Nat → List Instruction
  | depth, number, 0 => [.filter depth "plain" Filter.plain (text body) number]
  | depth, number, d + 1 =>
      .openTag depth compiledDiv number :: emitted body (depth + 1) (number + 1) d ++
        [.closeTag depth "div" false false]

theorem compile_nest {o : Options} (identity : o.filters.find? "plain" = some Filter.plain)
    (depth number d : Nat) :
    Compile.node o depth (nest number d (leaf (number + d) body)) =
      .ok (emitted body depth number d) := by
  induction d generalizing depth number with
  | zero =>
      simp [nest, leaf, Compile.node, Compile.filter, identity, emitted, bind, Except.bind, pure,
        Except.pure]
  | succ d ih =>
      have inner := ih (depth + 1) (number + 1)
      have shifted : number + 1 + d = number + (d + 1) := by omega
      rw [shifted] at inner
      have nested : Compile.nodes o (depth + 1) [nest (number + 1) d (leaf (number + (d + 1)) body)] =
          .ok (emitted body (depth + 1) (number + 1) d) := by
        rw [Compile.nodes, inner]
        simp [Compile.nodes, bind, Except.bind, pure, Except.pure]
      have tag : Compile.tag o div number = .ok compiledDiv := rfl
      rw [nest, Compile.node, tag]
      simp only [bind, Except.bind, List.isEmpty_cons, Bool.false_eq_true, if_false]
      rw [show Compile.innerDepth div depth = depth + 1 from rfl, nested]
      rfl

end Verbatim

namespace Buffer

theorem line_eq (depth : Nat) (raw out : List Char) :
    line depth raw ⟨out, false⟩ =
      ⟨out ++ Text.ended [Line.inBlock (.spaces 2) depth raw], false⟩ := by
  have lead : (Indent.spaces 2).lead depth = List.replicate (2 * depth) ' ' := by
    rw [Indent.lead, Nat.mul_comm]
  cases raw with
  | nil => simp [line, Line.inBlock, Text.ended]
  | cons c cs => simp [line, Line.inBlock, Text.ended, lead]

theorem foldl_line (depth : Nat) (body : List (List Char)) (out : List Char) :
    body.foldl (fun b raw => line depth raw b) ⟨out, false⟩ =
      ⟨out ++ Text.ended (body.map (Line.inBlock (.spaces 2) depth)), false⟩ := by
  induction body generalizing out with
  | nil => simp [Text.ended]
  | cons raw body ih =>
      rw [List.foldl_cons, line_eq, ih, List.append_assoc, ← Text.ended_append]
      rfl

theorem lines_intercalate {body : List (List Char)} (verbatim : Line.IsVerbatim body) (depth : Nat)
    (out : List Char) : lines depth (List.intercalate ['\n'] body) ⟨out, false⟩ =
      ⟨out ++ Text.ended (body.map (Line.inBlock (.spaces 2) depth)), false⟩ := by
  obtain ⟨last, ends, filled⟩ := verbatim.last
  have member := List.mem_of_getLast? ends
  have final := Text.getLast?_intercalate filled ends
  have unended : (List.intercalate ['\n'] body).getLast? ≠ some '\n' := by
    rw [final]
    intro newline
    exact (verbatim.whole last member).1 (List.mem_of_getLast? newline)
  have given : (List.intercalate ['\n'] body).isEmpty = false := by
    rw [List.isEmpty_eq_false_iff]
    intro absent
    rw [absent] at final
    exact filled (List.getLast?_eq_none_iff.mp final.symm)
  have split : (List.intercalate ['\n'] body).splitOn '\n' = body :=
    List.splitOn_intercalate '\n' (fun raw among => (verbatim.whole raw among).1)
      (List.ne_nil_of_mem member)
  unfold lines
  rw [Text.dropSuffix?_singleton unended]
  simp only [Option.getD_none, given, Bool.false_eq_true, if_false, split]
  exact foldl_line depth body out

end Buffer

namespace Verbatim

variable {u : Indent} {body : List (List Char)}

theorem written_succ (depth d : Nat) (body : List (List Char)) :
    Text.ended (written depth (d + 1) body) =
      Text.ended [(Indent.spaces 2).lead depth ++ "<div>".toList] ++
        (Text.ended (written (depth + 1) d body) ++
          Text.ended [(Indent.spaces 2).lead depth ++ "</div>".toList]) := by
  have shifted : depth + (d + 1) = depth + 1 + d := by omega
  rw [written, stairs_succ, stairs_succ, shifted, List.reverse_cons, ← Text.ended_append,
    ← Text.ended_append, written]
  simp only [List.cons_append, List.nil_append, List.append_assoc]

/-- Each element writes its tags around what is in it, and the filter writes its lines. -/
theorem steps_emitted (verbatim : Line.IsVerbatim body) (e : Evaluator) (id : String)
    (settings : RenderSettings) (depth number d : Nat) (rest : List Instruction) (previous : Branch)
    (c : Context) (out : List Char) :
    Render.steps e id settings (emitted body depth number d ++ rest) previous
        ⟨c, ⟨out, false⟩⟩ =
      Render.steps e id settings rest .idle
        ⟨c, ⟨out ++ Text.ended (written depth d body), false⟩⟩ := by
  induction d generalizing depth number rest previous out with
  | zero =>
      have step : Render.step e id settings (.filter depth "plain" Filter.plain (text body) number)
          previous ⟨c, ⟨out, false⟩⟩ =
          (.ok .idle, ⟨c, ⟨out ++ Text.ended (written depth 0 body), false⟩⟩) := by
        have block : written depth 0 body = body.map (Line.inBlock (.spaces 2) depth) := by
          simp [written, stairs]
        rw [Render.step_eq_write (by intro _ _ _ same; cases same), block,
          ← Buffer.lines_intercalate verbatim]
        simp [Render.write, Render.writeWith, Filter.plain, text, Except.map, Except.mapError,
          Functor.map]
      rw [emitted, List.singleton_append, Render.steps, step]
  | succ d ih =>
      have opening : Render.step e id settings (.openTag depth compiledDiv number) previous
          ⟨c, ⟨out, false⟩⟩ =
          (.ok .idle, ⟨c, ⟨out ++ Text.ended [(Indent.spaces 2).lead depth ++ "<div>".toList],
            false⟩⟩) := by
        rw [Render.step_eq_write (by intro _ _ _ same; cases same)]
        have opened : Render.openTag e c settings compiledDiv = .ok "<div".toList := rfl
        simp only [Render.write, opened, Render.writeWith]
        exact congrArg (fun b => (Except.ok Branch.idle, Render.Progress.mk c b))
          (Buffer.line_eq depth "<div>".toList out)
      have closing (out : List Char) : Render.step e id settings
          (.closeTag depth "div" false false) .idle ⟨c, ⟨out, false⟩⟩ =
          (.ok .idle, ⟨c, ⟨out ++ Text.ended [(Indent.spaces 2).lead depth ++ "</div>".toList],
            false⟩⟩) := by
        rw [Render.step_eq_write (by intro _ _ _ same; cases same)]
        exact congrArg (fun b => (Except.ok Branch.idle, Render.Progress.mk c b))
          (Buffer.line_eq depth "</div>".toList out)
      rw [emitted, List.cons_append, List.cons_append, List.append_assoc, Render.steps, opening]
      simp only
      rw [ih, List.singleton_append, Render.steps, closing]
      simp only
      rw [List.append_assoc, List.append_assoc, written_succ]

end Verbatim

open Verbatim in
/-- A filter that changes nothing gives its lines back verbatim: at any depth, whatever the document
is indented by, each line stands in the output as it is in the source, with the indentation of the
output in place of that of the block, and empty lines stay empty. -/
theorem Template.compile_verbatim {u : Indent} (wide : Indent.Wide (some u))
    {body : List (List Char)} (verbatim : Line.IsVerbatim body) (d : Nat) {o : Options}
    (identity : o.filters.find? "plain" = some Filter.plain)
    (chosen : Indent.preset o.indentUnit = none ∨ Indent.preset o.indentUnit = some u) :
    ∃ t, Template.compile (source u d body) o = .ok t ∧
      ∀ c, t.execute c = (.ok (output d body), c) := by
  have fits : Indent.Fits u (Indent.preset o.indentUnit) 0 := by
    rcases chosen with free | same
    · exact .inr ⟨free, Nat.zero_le 1⟩
    · exact .inl same
  have compiled : Compile.nodes o 0 [nest 1 d (leaf (1 + d) body)] = .ok (emitted body 0 1 d) := by
    rw [Compile.nodes, compile_nest identity]
    simp [Compile.nodes, bind, Except.bind, pure, Except.pure]
  refine ⟨⟨o.templateId, emitted body 0 1 d, o.renderSettings⟩, ?_, fun c => ?_⟩
  · rw [Template.compile, read_source wide verbatim fits]
    simp only [bind, Except.bind]
    rw [Forest.compile, compiled]
    rfl
  · have ran := steps_emitted verbatim c.evaluator o.templateId o.renderSettings 0 1 d [] .idle c []
    rw [List.append_nil, Render.steps, List.nil_append] at ran
    rw [Template.execute, Template.run]
    simp only [Buffer.empty, ran]
    rfl

namespace Verbatim

def sample : List (List Char) := [[], "<b> #{x} ".toList, [], "  %i \\".toList]

def options : Options := { Options.standard with escapeHtml := true, filters := Filter.builtin }

theorem isVerbatim_sample : Line.IsVerbatim sample :=
  ⟨by decide, by decide, by rintro raw ⟨⟩ c ⟨⟩; rfl, ⟨_, rfl, by decide⟩⟩

theorem source_sample : source .tab 1 sample = "%div\n\t:plain\n\n\t\t<b> #{x} \n\n\t\t  %i \\" := rfl

theorem output_sample :
    output 1 sample = "<div>\n\n  <b> #{x} \n\n    %i \\\n</div>\n" := rfl

end Verbatim

open Verbatim in
theorem Template.compile_verbatim_escaping : ∃ t,
    Template.compile "%div\n\t:plain\n\n\t\t<b> #{x} \n\n\t\t  %i \\" Verbatim.options = .ok t ∧
      ∀ c, t.execute c = (.ok "<div>\n\n  <b> #{x} \n\n    %i \\\n</div>\n", c) := by
  have wide : Indent.Wide (some .tab) := nofun
  have identity : Verbatim.options.filters.find? "plain" = some Filter.plain := rfl
  rw [← source_sample, ← output_sample]
  exact compile_verbatim wide isVerbatim_sample 1 identity (.inl rfl)

end Haml
