import Haml.Proofs.Emission
import Haml.Render
/-! Suppressed evaluation: what is compiled without it holds no code, so that a render of it asks no
evaluator for anything. -/

namespace Haml

def ElementContent.Inert : ElementContent → Prop
  | .empty | .selfClosing | .text _ => True
  | .interpolated .. | .output .. => False

/-- Whether an instruction holds no code. -/
def Instruction.Inert : Instruction → Prop
  | .text .. | .closeTag .. | .filter .. => True
  | .element _ tag content _ => tag.computed = [] ∧ content.Inert
  | .openTag _ tag _ => tag.computed = []
  | .interpolated .. | .output .. | .script .. => False

namespace Compile

variable {o : Options}

section

variable (suppressed : o.suppressEval = true)

include suppressed

theorem textParts_suppressed {text : String} {line : Nat} {parts : TextParts}
    (read : textParts o text line = .ok parts) : ∃ fixed, parts = .fixed fixed := by
  unfold textParts at read
  split at read
  · cases read
    exact ⟨_, rfl⟩
  · split at read
    · cases read
    · rw [suppressed] at read
      simp only [Bool.not_true, Bool.and_false] at read
      cases read
      exact ⟨_, rfl⟩

theorem textLine_inert {depth line : Nat} {text : String} {i : Instruction}
    (compiled : textLine o depth text line = .ok i) : i.Inert := by
  obtain ⟨parts, read, rest⟩ := bind_ok compiled
  obtain ⟨fixed, rfl⟩ := textParts_suppressed suppressed read
  cases rest
  trivial

theorem addEntry_suppressed {line : Nat} {known next : AttributeSet × List AttributeEntry}
    {entry : AttributeEntry} (added : addEntry o line known entry = .ok next) :
    next.2 = known.2 := by
  cases entry with
  | fixed name value =>
      cases added
      rfl
  | dynamic name value =>
      rw [addEntry, if_pos suppressed] at added
      · cases added
        rfl
      · simp
  | splat code =>
      rw [addEntry, if_pos suppressed] at added
      · cases added
        rfl
      · simp

theorem tag_suppressed {t : Tag} {line : Nat} {compiled : CompiledTag}
    (h : tag o t line = .ok compiled) : compiled.computed = [] := by
  obtain ⟨merged, folded, rest⟩ := bind_ok h
  cases rest
  have kept : Gives (fun known : AttributeSet × List AttributeEntry => known.2 = [])
      (t.attributes.foldlM (addEntry o line) (.empty, [])) := by
    refine .foldlM (fun known entry _ none next added => ?_) rfl
    exact (addEntry_suppressed suppressed added).trans none
  exact kept merged folded

theorem content_inert {t : Tag} {line : Nat} {inner : ElementContent}
    (h : content o t line = .ok inner) : inner.Inert := by
  unfold content at h
  split at h
  · cases h
    split <;> trivial
  · obtain ⟨parts, read, rest⟩ := bind_ok h
    obtain ⟨fixed, rfl⟩ := textParts_suppressed suppressed read
    cases rest
    trivial
  · rw [if_pos suppressed] at h
    cases h
    trivial

end

/-- Whatever the nodes are, what they are compiled to holds no code. -/
theorem carries_inert (suppressed : o.suppressEval = true) :
    Carries o (fun _ => True) Instruction.Inert where
  children := fun _ _ _ => trivial
  element := fun _ opened filled =>
    ⟨tag_suppressed suppressed opened, content_inert suppressed filled⟩
  openTag := tag_suppressed suppressed
  closeTag := fun _ _ _ _ => trivial
  text := fun _ _ => trivial
  textLine := textLine_inert suppressed
  output := fun evaluated => by
    rw [suppressed] at evaluated
    cases evaluated
  script := fun evaluated => by
    rw [suppressed] at evaluated
    cases evaluated
  filter := fun _ _ => trivial

section

variable (suppressed : o.suppressEval = true)

include suppressed

theorem addEntry_unchecked (check : Option (String → Except String Unit)) :
    addEntry { o with syntaxCheck := check } = addEntry o := by
  funext line known entry
  cases entry with
  | fixed name value => rfl
  | dynamic name value => simp [addEntry, suppressed]
  | splat code => simp [addEntry, suppressed]

theorem tag_unchecked (check : Option (String → Except String Unit)) :
    tag { o with syntaxCheck := check } = tag o := by
  funext t line
  simp only [tag, addEntry_unchecked suppressed check]

theorem node_unchecked (check : Option (String → Except String Unit)) :
    (∀ depth n, node { o with syntaxCheck := check } depth n = node o depth n) ∧
      ∀ depth ns, nodes { o with syntaxCheck := check } depth ns = nodes o depth ns := by
  have both := node.mutual_induct
    (fun depth n => node { o with syntaxCheck := check } depth n = node o depth n)
    (fun depth ns => nodes { o with syntaxCheck := check } depth ns = nodes o depth ns)
    ?tag ?text ?output ?script ?inlineComment ?comment ?silentComment ?filter ?doctype ?nil ?cons
  · exact both
  case tag =>
    intro depth t line children ih
    rw [node, node, tag_unchecked suppressed check, ih]
    rfl
  case script =>
    intro depth code line children ih
    rw [node, node, ih]
  case comment =>
    intro depth c line children htext ih
    rw [node, node, ih]
  case cons =>
    intro depth n rest ihn ihrest
    rw [nodes, nodes, ihn, ihrest]
  case inlineComment =>
    intro depth c line children text htext
    rw [node, node, htext]
  case nil =>
    intro depth
    rw [nodes, nodes]
  case text | output | filter =>
    intros
    rw [node, node]
    rfl
  case silentComment | doctype =>
    intros
    rw [node, node]

theorem compile_unchecked (check : Option (String → Except String Unit)) (source : String) :
    Template.compile source { o with syntaxCheck := check } = Template.compile source o := by
  simp only [Template.compile, Forest.compile, (node_unchecked suppressed check).2]
  rfl

theorem inert_of_compile {source : String} {t : Template}
    (compiled : Template.compile source o = .ok t) : ∀ i ∈ t.instructions, i.Inert := by
  obtain ⟨forest, -, rest⟩ := bind_ok compiled
  exact (emitsAll_of_compile rest).1.all (carries_inert suppressed) fun _ _ => trivial

end

end Compile

/-- Whether a failure is that of a filter of the template, in the place of the filter. -/
def Template.FilterFails (t : Template) (failure : Error) : Prop :=
  ∃ depth name filter text line reason, .filter depth name filter text line ∈ t.instructions ∧
    filter text = .error reason ∧
    failure = (Render.filterError name reason).located ⟨t.id, line⟩

namespace Render

variable (id : String) (settings : RenderSettings)

theorem openTag_of_computed_nil {tag : CompiledTag} (known : tag.computed = []) :
    ∃ opened, ∀ e c, openTag e c settings tag = .ok opened := by
  simp only [openTag, known, List.foldlM_nil]
  exact ⟨_, fun _ _ => rfl⟩

theorem content_of_inert {content : ElementContent} (inert : content.Inert) :
    ∃ inner, ∀ e c, Render.content e c content = .ok inner := by
  cases content with
  | empty => exact ⟨_, fun _ _ => rfl⟩
  | selfClosing => exact ⟨_, fun _ _ => rfl⟩
  | text text => exact ⟨_, fun _ _ => rfl⟩
  | interpolated segments escape => cases inert
  | output code escape => cases inert

/-- What an instruction without code does to the output. -/
theorem write_inert {i : Instruction} (inert : i.Inert) (b : Buffer) :
    ∃ outcome b', (∀ e c, write e settings c i b = (outcome, b')) ∧
      ∀ failure, outcome = .error failure → ∃ depth name filter text line reason,
        i = .filter depth name filter text line ∧ filter text = .error reason ∧
        failure = filterError name reason := by
  cases i with
  | text depth text =>
      exact ⟨.ok (), b.line depth text.toList, fun _ _ => rfl, nofun⟩
  | closeTag depth name trimInner trimOuter =>
      exact ⟨.ok (), glueIf trimOuter ((glueIf trimInner b).line depth (endTag name)),
        fun _ _ => rfl, nofun⟩
  | element depth tag content line =>
      obtain ⟨opened, opens⟩ := openTag_of_computed_nil settings inert.1
      obtain ⟨inner, fills⟩ := content_of_inert inert.2
      refine ⟨.ok (), glueIf tag.trimOuter (writeElement settings depth tag opened inner
        (glueIf tag.trimOuter b)), fun e c => ?_, nofun⟩
      simp only [write, opens, fills]
      rfl
  | openTag depth tag line =>
      obtain ⟨opened, opens⟩ := openTag_of_computed_nil settings inert
      refine ⟨.ok (), glueIf tag.trimInner ((glueIf tag.trimOuter b).line depth (opened ++ ['>'])),
        fun e c => ?_, nofun⟩
      simp only [write, opens]
      rfl
  | filter depth name filter text line =>
      cases filtered : filter text with
      | ok written =>
          refine ⟨.ok (), b.lines depth written.toList, fun e c => ?_, nofun⟩
          simp only [write, filtered]
          rfl
      | error reason =>
          refine ⟨.error (filterError name reason), b, fun e c => ?_, fun failure failed => ?_⟩
          · simp only [write, filtered]
            rfl
          · cases failed
            exact ⟨depth, name, filter, text, line, reason, rfl, filtered, rfl⟩
  | interpolated depth segments escape line => cases inert
  | output depth code escape line => cases inert
  | script code line body => cases inert

theorem step_inert {i : Instruction} (inert : i.Inert) (b : Buffer) :
    ∃ outcome b', (∀ e previous c, step e id settings i previous ⟨c, b⟩ = (outcome, ⟨c, b'⟩)) ∧
      ∀ failure, outcome = .error failure → ∃ depth name filter text line reason,
        i = .filter depth name filter text line ∧ filter text = .error reason ∧
        failure = filterError name reason := by
  obtain ⟨outcome, b', same, fails⟩ := write_inert settings inert b
  refine ⟨outcome.map fun _ => .idle, b', fun e previous c => ?_, fun failure failed => ?_⟩
  · rw [step_eq_write, same]
    rintro code line body rfl
    cases inert
  · cases outcome with
    | error e =>
        cases failed
        exact fails _ rfl
    | ok done => cases failed

theorem steps_inert {is : List Instruction} (inert : ∀ i ∈ is, i.Inert) (b : Buffer) :
    ∃ outcome b', (∀ e previous c, steps e id settings is previous ⟨c, b⟩ = (outcome, ⟨c, b'⟩)) ∧
      ∀ failure, outcome = .error failure → ∃ depth name filter text line reason,
        .filter depth name filter text line ∈ is ∧ filter text = .error reason ∧
        failure = (filterError name reason).located ⟨id, line⟩ := by
  induction is generalizing b with
  | nil =>
      refine ⟨.ok (), b, fun _ _ _ => ?_, nofun⟩
      rw [steps]
  | cons i rest ih =>
      obtain ⟨first, middle, steps_first, fails_first⟩ :=
        step_inert id settings (inert i (List.mem_cons_self ..)) b
      cases first with
      | error e =>
          obtain ⟨depth, name, filter, text, line, reason, rfl, filtered, rfl⟩ := fails_first e rfl
          refine ⟨.error ((filterError name reason).located ⟨id, line⟩), middle,
            fun e previous c => ?_, fun failure failed => ?_⟩
          · rw [steps, steps_first]
            rfl
          · cases failed
            exact ⟨depth, name, filter, text, line, reason, List.mem_cons_self .., filtered, rfl⟩
      | ok branch =>
          obtain ⟨outcome, last, steps_rest, fails_rest⟩ :=
            ih (fun j member => inert j (List.mem_cons_of_mem i member)) middle
          refine ⟨outcome, last, fun e previous c => ?_, fun failure failed => ?_⟩
          · rw [steps, steps_first]
            exact steps_rest e branch c
          · obtain ⟨depth, name, filter, text, line, reason, member, fails⟩ :=
              fails_rest failure failed
            exact ⟨depth, name, filter, text, line, reason, List.mem_cons_of_mem i member, fails⟩

end Render

/-- A template compiled without evaluation holds no code. Its run comes out the same for every
evaluator in every context, leaves the context as it is, and fails only where a filter does; nor
does an evaluator have a say in what is compiled. -/
theorem Template.suppressed_inert {source : String} {o : Options} {t : Template}
    (suppressed : o.suppressEval = true) (compiled : Template.compile source o = .ok t) :
    (∀ i ∈ t.instructions, i.Inert) ∧
    (∀ check, Template.compile source { o with syntaxCheck := check } = .ok t) ∧
    ∃ outcome, (∀ e c, t.run e c = (outcome, c)) ∧
      ∀ failure, outcome = .error failure → t.FilterFails failure := by
  have inert := Compile.inert_of_compile suppressed compiled
  refine ⟨inert, fun check => ?_, ?_⟩
  · rw [Compile.compile_unchecked suppressed check, compiled]
  · obtain ⟨outcome, b, same, fails⟩ :=
      Render.steps_inert t.id t.settings inert .empty
    refine ⟨outcome.map fun _ => String.ofList b.text, fun e c => ?_, fun failure failed => ?_⟩
    · rw [Template.run, same]
    · cases outcome with
      | error e =>
          cases failed
          exact fails _ rfl
      | ok done => cases failed

def codePage : String :=
  "%p\x7ba: raise('a'), b: \"#\x7braise('b')\x7d\"\x7d= raise('c')\n%p #\x7braise('d')\x7d\n" ++
    "- raise('e')\n  = raise('f')\n  text #\x7braise('g')\x7d\n%p\x7braise('h')\x7d\n  raw"

theorem codePage_inert :
    ∃ t, Template.compile codePage { Options.standard with suppressEval := true } = .ok t ∧
      (∀ i ∈ t.instructions, i.Inert) ∧ ∃ outcome, ∀ e c, t.run e c = (outcome, c) := by
  have compiles : (Template.compile codePage
      { Options.standard with suppressEval := true }).isOk = true := by decide +kernel
  cases compiled : Template.compile codePage { Options.standard with suppressEval := true } with
  | error e =>
      rw [compiled] at compiles
      cases compiles
  | ok t =>
      obtain ⟨inert, -, outcome, same, -⟩ := Template.suppressed_inert rfl compiled
      exact ⟨t, rfl, inert, outcome, same⟩

end Haml
