import Haml.Evaluator.Echo
import Haml.Filter.Registry
import Haml.Proofs.Emission
import Haml.Proofs.OneLine
import Haml.Proofs.Shifted
/-! Wrapped documents: what an element writes around a forest that is nested in it is its tags, and
between them the output of the forest, indented. -/

namespace Haml

open Instruction (Fits FitAll shifted redrawn redrawnAll redrawnAll_append)

namespace Compile

theorem node_succ (o : Options) :
    (∀ depth n, node o (depth + 1) n = redrawnAll shifted <$> node o depth n) ∧
      ∀ depth ns, nodes o (depth + 1) ns = redrawnAll shifted <$> nodes o depth ns := by
  have both := node.mutual_induct
    (fun depth n => node o (depth + 1) n = redrawnAll shifted <$> node o depth n)
    (fun depth ns => nodes o (depth + 1) ns = redrawnAll shifted <$> nodes o depth ns)
    ?tag ?text ?output ?script ?inlineComment ?comment ?silentComment ?filter ?doctype ?nil ?cons
  · exact both
  case tag =>
    intro depth t line children ih
    have deeper : innerDepth t (depth + 1) = innerDepth t depth + 1 := by
      unfold innerDepth
      split <;> rfl
    rw [node, node]
    refine bind_same _ fun compiled => ?_
    split
    · exact bind_same _ fun inner => rfl
    · rw [deeper]
      refine bind_natural ih fun inner => congrArg Except.ok ?_
      simp only [List.cons_append, redrawnAll, redrawnAll_append]
      rfl
  case text =>
    intro depth text line children
    rw [node, node, textLine, textLine]
    cases textParts o text line with
    | error e => rfl
    | ok parts => cases parts <;> rfl
  case output =>
    intro depth code escaping line children
    rw [node, node]
    split <;> rfl
  case script =>
    intro depth code line children ih
    rw [node, node]
    refine bind_natural ih fun body => ?_
    split <;> rfl
  case inlineComment =>
    intro depth c line children text written
    rw [node, node, written]
    rfl
  case comment =>
    intro depth c line children bare ih
    rw [node, node, bare]
    refine bind_natural ih fun inner => congrArg Except.ok ?_
    simp only [List.cons_append, redrawnAll, redrawnAll_append]
    rfl
  case silentComment =>
    intro depth line children
    rw [node, node]
    rfl
  case filter =>
    intro depth name body line children
    rw [node, node]
    exact bind_same _ fun f => rfl
  case doctype =>
    intro depth argument line children
    rw [node, node]
    cases Doctype.text? argument o.format o.attributeWrapper <;> rfl
  case nil =>
    intro depth
    rfl
  case cons =>
    intro depth n rest here others
    rw [nodes, nodes]
    refine bind_natural here fun first => ?_
    refine bind_natural others fun more => congrArg Except.ok ?_
    exact (redrawnAll_append shifted first more).symm

end Compile

def NodeKind.trimsInner : NodeKind → Bool
  | .tag t => t.trimInner
  | _ => false

def NodeKind.trimsOuter : NodeKind → Bool
  | .tag t => t.trimOuter
  | _ => false

/-- Whether a node trims nothing around it, and neither does one that takes its place: those at the
root of a script's block do. -/
inductive Node.Apart : Node → Prop
  | script {code : String} {line : Nat} {children : List Node} :
      (∀ n ∈ children, n.Apart) → Node.Apart ⟨.script code, line, children⟩
  | other {kind : NodeKind} {line : Nat} {children : List Node} :
      (∀ code, kind ≠ .script code) → kind.trimsOuter = false → Node.Apart ⟨kind, line, children⟩

namespace Compile

variable {o : Options}

theorem fits_of_textLine {seen : Bool} {depth line : Nat} {text : String} {i : Instruction}
    (ok : textLine o depth text line = .ok i) (whole : '\n' ∉ text.toList) : Fits seen i := by
  obtain ⟨parts, read, done⟩ := bind_ok ok
  cases parts with
  | interpolated segments =>
      cases done
      exact .interpolated
  | fixed fixed =>
      cases done
      refine .text ?_
      unfold textParts at read
      split at read
      · cases read
        exact whole
      · split at read
        · cases read
        · next segments split =>
            split at read
            · cases read
            · cases read
              rw [String.toList_join]
              intro member
              obtain ⟨literal, among, inside⟩ := List.mem_flatMap.mp member
              have plain := Interpolation.not_mem_literals split List.not_mem_nil whole
              exact plain literal among inside

theorem shows_commentStart (c : Comment) (depth : Nat) :
    (Instruction.text depth (commentStart c)).shows = true := by
  have shown : Text.visible (commentStart c).toList ≠ [] := by
    refine Text.visible_ne_nil (c := '<') ?_ rfl
    unfold commentStart
    split <;> simp
  rw [Instruction.shows, List.isEmpty_eq_false_iff.mpr shown]
  rfl

/-- What trims around a node does so after something has been written. -/
theorem seen_of_trimsOuter {seen : Bool} {t : Tag} {line : Nat} {children : List Node}
    (apart : seen = false → Node.Apart ⟨.tag t, line, children⟩) {outer : Bool}
    (same : outer = t.trimOuter) : outer = true → seen = true := by
  rintro rfl
  cases seen with
  | true => rfl
  | false =>
      cases apart rfl with
      | other _ keeps => exact absurd (same.trans keeps) Bool.noConfusion

mutual

theorem Emits.fits (wrapper : o.attributeWrapper ≠ '\n') {depth : Nat} {n : Node}
    {is : List Instruction} {seen : Bool} (level : Nat) :
    Emits o depth n is →
      (∀ p ∈ n.preorder level, p.2.kind.OneLine ∧ p.2.kind.trimsInner = false) →
      (seen = false → n.Apart) → FitAll seen is
  | .element tagged _, plain, apart => by
      obtain ⟨name, inner, outer⟩ := tag_keeps tagged
      obtain ⟨single, spaced⟩ := plain _ (List.mem_cons_self ..)
      refine .cons (.element ?_ (inner.trans spaced) (seen_of_trimsOuter apart outer)) .nil
      rw [name]
      exact single
  | .nest tagged _ nested, plain, apart => by
      obtain ⟨name, inner, outer⟩ := tag_keeps tagged
      obtain ⟨⟨single, spaced⟩, below⟩ := List.forall_mem_cons.mp plain
      have untrimmed : Tag.trimInner _ = false := spaced
      rw [untrimmed]
      refine .enclosed (.openTag ?_ (inner.trans spaced) (seen_of_trimsOuter apart outer)) rfl
        (nested.fits wrapper (level + 1) below nofun) (.closeTag single)
      rw [name]
      exact single
  | .script _ body, plain, apart => by
      obtain ⟨-, below⟩ := List.forall_mem_cons.mp plain
      refine .cons (.script (body.fits wrapper (level + 1) below fun unseen => ?_)) .nil
      cases apart unseen with
      | script inside => exact inside
      | other none => exact absurd rfl (none _)
  | .suppressedScript _ body, plain, apart => by
      obtain ⟨-, below⟩ := List.forall_mem_cons.mp plain
      refine body.fits wrapper (level + 1) below fun unseen => ?_
      cases apart unseen with
      | script inside => exact inside
      | other none => exact absurd rfl (none _)
  | .text written, plain, _ => by
      obtain ⟨single, -⟩ := plain _ (List.mem_cons_self ..)
      exact .cons (fits_of_textLine written single) .nil
  | .inlineComment written, plain, _ => by
      obtain ⟨single, -⟩ := plain _ (List.mem_cons_self ..)
      exact .cons (.text (commentLine_whole single written)) .nil
  | .comment _ nested, plain, _ => by
      obtain ⟨⟨single, -⟩, below⟩ := List.forall_mem_cons.mp plain
      exact .enclosed (.text (commentStart_whole single)) (shows_commentStart ..)
        (nested.fits wrapper (level + 1) below nofun) (.text (commentEnd_whole _))
  | .doctype, _, _ => by
      cases given : Doctype.text? _ o.format o.attributeWrapper with
      | none => exact .nil
      | some text => exact .cons (.text (Doctype.not_mem_text wrapper given)) .nil
  | .filter _, _, _ => .cons .filter .nil
  | .output _, _, _ => .cons .output .nil
  | .suppressedOutput _, _, _ => .nil
  | .silentComment, _, _ => .nil

theorem EmitsAll.fits (wrapper : o.attributeWrapper ≠ '\n') {depth : Nat} {ns : List Node}
    {is : List Instruction} {seen : Bool} (level : Nat) :
    EmitsAll o depth ns is →
      (∀ p ∈ Forest.preorderAt level ns, p.2.kind.OneLine ∧ p.2.kind.trimsInner = false) →
      (seen = false → ∀ n ∈ ns, n.Apart) → FitAll seen is
  | .nil, _, _ => .nil
  | .cons first others, plain, apart => by
      rw [Forest.preorderAt] at plain
      obtain ⟨here, rest⟩ := List.forall_mem_append.mp plain
      refine .append (first.fits wrapper level here ?_) (others.fits wrapper level rest ?_)
      · exact fun unseen => apart unseen _ (List.mem_cons_self ..)
      · exact fun unseen n member => apart unseen n (List.mem_cons_of_mem _ member)

end

end Compile

def Forest.wrapped (forest : Forest) (line : Nat) : Forest :=
  [⟨.tag ⟨"div", [], false, false, false, none⟩, line, forest⟩]

def Text.wrapped (text : String) : String :=
  "<div>\n" ++ String.ofList (Text.indent text.toList) ++ "</div>\n"

/-- Whether a run of a template performs an instruction, and what it has come to there. -/
def Template.Performs (t : Template) (e : Evaluator) (c : Context) :
    Instruction → Render.Progress → Prop :=
  Render.Reaches e t.id t.settings t.instructions .idle ⟨c, .empty⟩

namespace Compile

theorem nodes_wrapped (o : Options) {forest : Forest} (given : forest ≠ []) (line : Nat) :
    nodes o 0 (forest.wrapped line) =
      (fun is => .openTag 0 ⟨"div", .empty, [], false, false⟩ line :: redrawnAll shifted is ++
        [.closeTag 0 "div" false false]) <$> nodes o 0 forest := by
  have filled : ¬ List.isEmpty forest = true := by simpa using given
  have opened : tag o ⟨"div", [], false, false, false, none⟩ line =
      .ok ⟨"div", .empty, [], false, false⟩ := rfl
  have deeper : innerDepth ⟨"div", [], false, false, false, none⟩ 0 = 0 + 1 := rfl
  rw [Forest.wrapped, nodes, node, opened]
  simp only [bind, Except.bind, filled, Bool.false_eq_true, if_false, deeper,
    (node_succ o).2 0 forest, nodes]
  cases nodes o 0 forest with
  | error e => rfl
  | ok is => exact congrArg Except.ok (List.append_nil _)

end Compile

open Render Buffer

theorem Render.run_shifted {e : Evaluator} {id : String} {settings : RenderSettings}
    {is : List Instruction} {c : Context} (fit : FitAll false is)
    (wrapper : settings.attributeWrapper ≠ '\n')
    (attributes : ∀ i q, Reaches e id settings is .idle ⟨c, .empty⟩ i q →
      ∀ tag ∈ i.tag?, tag.OneLine e q.context) (line : Nat) :
    (Template.run ⟨id, .openTag 0 ⟨"div", .empty, [], false, false⟩ line :: redrawnAll shifted is ++
      [.closeTag 0 "div" false false], settings⟩ e c) =
      ((Template.run ⟨id, is, settings⟩ e c).1.map Text.wrapped,
        (Template.run ⟨id, is, settings⟩ e c).2) := by
  have start : Indented "<div>\n".toList .empty ⟨"<div>\n".toList, false⟩ := ⟨rfl, rfl, rfl⟩
  have inside := steps_redrawn e id settings Instruction.redraws_shifted is .idle ⟨c, .empty⟩ _ start
    fun j q reaches => by
      obtain ⟨now, fits, seen⟩ := reaches.fits fit nofun
      exact redrawable_shifted fits seen wrapper (attributes j q reaches)
  have opens : step e id settings (.openTag 0 ⟨"div", .empty, [], false, false⟩ line) .idle
      ⟨c, .empty⟩ = (.ok .idle, ⟨c, ⟨"<div>\n".toList, false⟩⟩) := by
    rw [step_eq_write (by intro _ _ _ same; cases same)]
    rfl
  obtain ⟨branch, closes⟩ := steps_append e id settings (redrawnAll shifted is)
    [.closeTag 0 "div" false false] .idle ⟨c, ⟨"<div>\n".toList, false⟩⟩
  rw [Template.run, Template.run]
  simp only [List.cons_append, steps, opens, closes]
  generalize steps e id settings is .idle ⟨c, .empty⟩ = x at inside
  generalize steps e id settings (redrawnAll shifted is) .idle ⟨c, ⟨"<div>\n".toList, false⟩⟩ = y
    at inside
  obtain ⟨outcome, p⟩ := x
  obtain ⟨outcome', q⟩ := y
  obtain ⟨same, context, written⟩ := inside
  cases same
  dsimp only at context written ⊢
  cases outcome with
  | error e =>
      dsimp only
      rw [context]
      rfl
  | ok done =>
      have closing : (q.buffer.line 0 (endTag "div")).text = q.buffer.text ++ "</div>\n".toList := by
        simp only [Buffer.line, Nat.mul_zero, List.replicate_zero, ite_self, List.append_nil,
          List.append_assoc]
        rfl
      have last : step e id settings (.closeTag 0 "div" false false) branch q =
          (.ok .idle, ⟨q.context, q.buffer.line 0 (endTag "div")⟩) := by
        rw [step_eq_write (by intro _ _ _ same; cases same)]
        rfl
      simp only [last, Except.map, Text.wrapped]
      rw [context, closing, written.text, ← Text.indent_eq, String.ofList_append,
        String.ofList_append, String.ofList_toList, String.ofList_toList, String.toList_ofList]

/-- Nesting only indents: in a `div`, a forest writes what it writes alone, with two spaces before
each line that is not empty, and fails as it does alone. -/
theorem Forest.run_wrapped {forest : Forest} (filled : forest ≠ []) {o : Options}
    (wrapper : o.attributeWrapper ≠ '\n')
    (single : ∀ p ∈ forest.preorder, p.2.kind.OneLine)
    (spaced : ∀ p ∈ forest.preorder, p.2.kind.trimsInner = false) (apart : ∀ n ∈ forest, n.Apart)
    {e : Evaluator} {c : Context}
    (attributes : ∀ t, forest.compile o = .ok t → ∀ i q, t.Performs e c i q →
      ∀ tag ∈ i.tag?, tag.OneLine e q.context) (line : Nat) :
    (Forest.compile (forest.wrapped line) o).map (fun t => t.run e c) =
      (forest.compile o).map fun t => ((t.run e c).1.map Text.wrapped, (t.run e c).2) := by
  rw [Forest.compile, Forest.compile, Compile.nodes_wrapped o filled]
  cases compiled : Compile.nodes o 0 forest with
  | error e => rfl
  | ok is =>
      have template : forest.compile o = .ok ⟨o.templateId, is, o.renderSettings⟩ := by
        rw [Forest.compile, compiled]
        rfl
      have fit : FitAll false is :=
        ((Compile.emits o).2 0 forest is compiled).fits wrapper 0
          (fun p member => ⟨single p member, spaced p member⟩) fun _ => apart
      exact congrArg Except.ok (Render.run_shifted fit wrapper (attributes _ template) line)

namespace Wrapped

def evaluator : Evaluator := Evaluator.Echo.evaluator

def context : Context := .new .echo

theorem oneLine_of_merged {tag : CompiledTag} {e : Evaluator} {c : Context} (set : AttributeSet)
    (merged : tag.computed.foldlM (mergeEntry e c) tag.attributes = .ok set)
    (whole : ∀ entry ∈ set.entries, '\n' ∉ entry.1.toList ∧
      ∀ value, entry.2 = .text value → '\n' ∉ value.toList) : tag.OneLine e c := by
  intro other same
  rw [merged] at same
  cases same
  exact whole

def ul : Tag := ⟨"ul", [], false, false, false, none⟩

def li : Tag :=
  ⟨"li", [.dynamic "title" (.expression "x")], false, true, false, some (.text "one")⟩

def page : Forest :=
  [⟨.tag ul, 1, [⟨.script "twice", 2, [⟨.tag li, 3, []⟩]⟩]⟩, ⟨.filter "plain" "a\n\n  b", 4, []⟩]

def options : Options :=
  { Options.standard with filters := Filter.builtin, syntaxCheck := none }

def item : Instruction :=
  .element 1 ⟨"li", .empty, [.dynamic "title" (.expression "x")], true, false⟩ (.text "one") 3

def compiled : List Instruction :=
  [.openTag 0 ⟨"ul", .empty, [], false, false⟩ 1, .script "twice" 2 [item],
    .closeTag 0 "ul" false false, .filter 0 "plain" Filter.plain "a\n\n  b" 4]

theorem compile_page : Forest.compile page options =
    .ok ⟨"haml", compiled, options.renderSettings⟩ := rfl

theorem merge_title (c : Context) :
    mergeEntry evaluator c .empty (.dynamic "title" (.expression "x")) =
      .ok ⟨[("title", .text "X")]⟩ := by
  have upper : Text.asciiUpper "x" = "X" := by decide +kernel
  have value : evaluator.evaluate "x" c = .ok (.ofString "X") := congrArg (Except.ok ∘ _) upper
  rw [mergeEntry, value]
  rfl

theorem attributes_page {i : Instruction} {q : Progress}
    (performs : Template.Performs ⟨"haml", compiled, options.renderSettings⟩ evaluator context i q) :
    ∀ tag ∈ i.tag?, tag.OneLine evaluator q.context := by
  have among : i ∈ item :: compiled :=
    performs.holds (fun j member => List.mem_cons_of_mem item member) <| by
      intro code line body member
      simp [item, compiled] at member
      obtain ⟨rfl, rfl, rfl⟩ := member
      simp [item]
  intro tag opened
  simp only [compiled, List.mem_cons, List.not_mem_nil, or_false] at among
  rcases among with rfl | rfl | rfl | rfl | rfl
  · cases opened
    refine oneLine_of_merged ⟨[("title", .text "X")]⟩ ?_ (by simp)
    rw [List.foldlM_cons, merge_title]
    rfl
  · cases opened
    exact oneLine_of_merged .empty rfl nofun
  · cases opened
  · cases opened
  · cases opened

end Wrapped

open Wrapped in
theorem Forest.run_wrapped_page :
    (Forest.compile (Forest.wrapped page 5) options).map (fun t => (t.run evaluator context).1) =
      .ok (.ok
        "<div>\n  <ul><li title='X'>one</li><li title='X'>one</li></ul>\n  a\n\n    b\n</div>\n") := by
  have apart : ∀ n ∈ page, n.Apart :=
    List.forall_mem_cons.mpr ⟨.other nofun rfl,
      List.forall_mem_singleton.mpr (.other nofun rfl)⟩
  have filled : page ≠ [] := List.cons_ne_nil _ _
  have wrapper : options.attributeWrapper ≠ '\n' := by decide
  have attributes (t : Template) (same : page.compile options = .ok t) (i : Instruction)
      (q : Progress) (performs : t.Performs evaluator context i q) :
      ∀ tag ∈ i.tag?, tag.OneLine evaluator q.context := by
    rw [compile_page] at same
    cases same
    exact attributes_page performs
  have ran := Forest.run_wrapped filled wrapper (by decide +kernel) (by decide) apart attributes 5
  rw [compile_page] at ran
  have alone : (Template.run ⟨"haml", compiled, options.renderSettings⟩ evaluator context).1 =
      .ok "<ul><li title='X'>one</li><li title='X'>one</li></ul>\na\n\n  b\n" := by decide +kernel
  have indented : Text.wrapped "<ul><li title='X'>one</li><li title='X'>one</li></ul>\na\n\n  b\n" =
      "<div>\n  <ul><li title='X'>one</li><li title='X'>one</li></ul>\n  a\n\n    b\n</div>\n" := by
    decide +kernel
  calc (Forest.compile (Forest.wrapped page 5) options).map (fun t => (t.run evaluator context).1)
      = ((Forest.compile (Forest.wrapped page 5) options).map
          fun t => t.run evaluator context).map Prod.fst := by
        cases Forest.compile (Forest.wrapped page 5) options <;> rfl
    _ = .ok ((Template.run ⟨"haml", compiled, options.renderSettings⟩ evaluator context).1.map
          Text.wrapped) := congrArg (Except.map Prod.fst) ran
    _ = .ok (.ok _) := by
        rw [alone, Except.map, indented]

/-! Line feeds in what is written in one line are not indented. -/

namespace Wrapped

def quoted : Forest := [⟨.tag ⟨"p", [.fixed "a" (.text "x")], false, false, false, none⟩, 1, []⟩]

def newlineQuotes : Options := { Options.standard with attributeWrapper := '\n' }

def twoLines : Forest := [⟨.text "a\nb", 1, []⟩]

theorem performs_single {t : Template} {i j : Instruction} {q : Progress}
    (single : t.instructions = [i]) (writes : i.Writes)
    (performs : t.Performs evaluator context j q) : j = i := by
  refine performs.holds (P := fun j => j = i) ?_ fun code line body script => ?_
  · rw [single]
    exact fun j member => List.mem_singleton.mp member
  · exact absurd script.symm (writes code line body)

end Wrapped

open Wrapped in
theorem Forest.wrapped_unindented :
    (∃ t, Document.read .auto "%p\x7b:a => 'x'\x7d" = .ok quoted ∧ (∀ n ∈ quoted, n.Apart) ∧
      (∀ p ∈ quoted.preorder, p.2.kind.trimsInner = false) ∧
      Forest.compile quoted newlineQuotes = .ok t ∧
      (∀ i q, t.Performs evaluator context i q → ∀ tag ∈ i.tag?, tag.OneLine evaluator q.context) ∧
      (Forest.compile (Forest.wrapped quoted 2) newlineQuotes).map
          (fun t => (t.run evaluator context).1) ≠
        .ok ((t.run evaluator context).1.map Text.wrapped)) ∧
    ∃ t, (∀ n ∈ twoLines, n.Apart) ∧ (∀ p ∈ twoLines.preorder, p.2.kind.trimsInner = false) ∧
      Forest.compile twoLines .standard = .ok t ∧
      (∀ i q, t.Performs evaluator context i q → ∀ tag ∈ i.tag?, tag.OneLine evaluator q.context) ∧
      (Forest.compile (Forest.wrapped twoLines 2) .standard).map
          (fun t => (t.run evaluator context).1) ≠
        .ok ((t.run evaluator context).1.map Text.wrapped) := by
  refine ⟨⟨_, by decide +kernel, ?_, by decide, rfl, fun i q performs => ?_, by decide +kernel⟩,
    ⟨_, ?_, by decide, rfl, fun i q performs => ?_, by decide +kernel⟩⟩
  · exact List.forall_mem_singleton.mpr (.other nofun rfl)
  · obtain rfl := performs_single rfl (by intro _ _ _ same; cases same) performs
    rintro tag ⟨⟩
    exact oneLine_of_merged ⟨[("a", .text "x")]⟩ rfl (by simp)
  · exact List.forall_mem_singleton.mpr (.other nofun rfl)
  · obtain rfl := performs_single rfl (by intro _ _ _ same; cases same) performs
    exact nofun

end Haml
