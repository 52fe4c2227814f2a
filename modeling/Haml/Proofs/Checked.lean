import Haml.Proofs.Located
/-! Checked expressions: what compiles with a syntax check has no expression in an attribute that the
check refuses, so no tag fails by one. -/

namespace Haml

open Renderer

inductive CompiledTag.Computes (tag : CompiledTag) : String → Prop
  | value {name code : String} :
      .dynamic name (.expression code) ∈ tag.computed → Computes tag code
  | part {name code : String} {segments : List Segment} :
      .dynamic name (.interpolated segments) ∈ tag.computed → .expression code ∈ segments →
      Computes tag code
  | splat {code : String} : .splat code ∈ tag.computed → Computes tag code

inductive Instruction.Opens (tag : CompiledTag) : Instruction → Prop
  | element {depth : Nat} {content : ElementContent} {line : Nat} :
      Opens tag (.element depth tag content line)
  | openTag {depth line : Nat} : Opens tag (.openTag depth tag line)

theorem CompiledTag.Computes.exists_entry {tag : CompiledTag} {code : String}
    (computes : tag.Computes code) : ∃ entry ∈ tag.computed, code ∈ entry.expressions := by
  cases computes with
  | value member => exact ⟨_, member, by simp [AttributeEntry.expressions]⟩
  | part member inside => exact ⟨_, member, AttributeEntry.mem_expressions.mpr inside⟩
  | splat member => exact ⟨_, member, by simp [AttributeEntry.expressions]⟩

/-- Whether all expressions of an entry pass a check. -/
def AttributeEntry.Passes (check : String → Except String Unit) (entry : AttributeEntry) : Prop :=
  ∀ code ∈ entry.expressions, check code = .ok ()

namespace Compile

variable {o : Options} {check : String → Except String Unit}

theorem checkEntry_ok {line : Nat} {entry : AttributeEntry} (checks : o.syntaxCheck = some check)
    (passes : checkEntry o line entry = .ok ()) : entry.Passes check := by
  simp only [checkEntry, checks] at passes
  intro code member
  exact ok_of_mapError (forM_ok passes code member)

theorem addEntry_gives {line : Nat} (checks : o.syntaxCheck = some check)
    {known : AttributeSet × List AttributeEntry} (passed : ∀ kept ∈ known.2, kept.Passes check)
    (entry : AttributeEntry) :
    Gives (fun next => ∀ kept ∈ next.2, kept.Passes check) (addEntry o line known entry) := by
  have keeps : Gives
      (fun next : AttributeSet × List AttributeEntry => ∀ kept ∈ next.2, kept.Passes check)
      (if o.suppressEval then .ok known
        else do
          checkEntry o line entry
          return (known.1, known.2 ++ [entry])) := by
    refine .ite (.ok passed) ?_
    intro next given
    obtain ⟨⟨⟩, passes, done⟩ := bind_ok given
    cases done
    have last := List.forall_mem_singleton.mpr (checkEntry_ok checks passes)
    exact List.forall_mem_append.mpr ⟨passed, last⟩
  cases entry with
  | fixed name value => exact .ok passed
  | dynamic name value => exact keeps
  | splat code => exact keeps

theorem check_of_tag {t : Tag} {line : Nat} {compiled : CompiledTag}
    (checks : o.syntaxCheck = some check) (ok : tag o t line = .ok compiled) {code : String}
    (computes : compiled.Computes code) : check code = .ok () := by
  obtain ⟨known, merged, done⟩ := bind_ok ok
  cases done
  obtain ⟨entry, member, among⟩ := computes.exists_entry
  have passed : Gives (fun known => ∀ kept ∈ known.2, AttributeEntry.Passes check kept)
      (t.attributes.foldlM (addEntry o line) (AttributeSet.empty, [])) := by
    refine .foldlM (fun known entry _ start => addEntry_gives checks start entry) ?_
    simp
  exact passed known merged entry member code among

theorem Writes.exists_tag {n : Node} {i : Instruction} {compiled : CompiledTag}
    (writes : Writes o n i) (opens : i.Opens compiled) : ∃ t line, tag o t line = .ok compiled := by
  cases opens with
  | element =>
      cases writes with
      | element tagged filled => exact ⟨_, _, tagged⟩
      | text written =>
          obtain ⟨parts, -, done⟩ := bind_ok written
          cases parts <;> cases done
  | openTag =>
      cases writes with
      | openTag tagged => exact ⟨_, _, tagged⟩
      | text written =>
          obtain ⟨parts, -, done⟩ := bind_ok written
          cases parts <;> cases done

theorem exists_tag_of_compile {source : String} {template : Template}
    (compiled : Template.compile source o = .ok template) {i : Instruction}
    (among : i.Among template.instructions) {opened : CompiledTag} (opens : i.Opens opened) :
    ∃ t line, tag o t line = .ok opened := by
  obtain ⟨forest, -, rest⟩ := bind_ok compiled
  have lined : ∃ line, i.line? = some line := by
    cases opens with
    | element => exact ⟨_, rfl⟩
    | openTag => exact ⟨_, rfl⟩
  obtain ⟨line, here⟩ := lined
  obtain ⟨p, -, writes⟩ := (emitsAll_of_compile rest).1.fromNodes 0 i among line here
  exact writes.exists_tag opens

end Compile

namespace Render

/-- Whether an expression fails to give the value that an attribute needs: it has none, or it is no
map where the entries of one are merged. -/
def FailsBy (e : Evaluator) (c : Context) (code : String) (failure : Error) : Prop :=
  e.evaluate code c = .error failure ∨
    ∃ v, e.evaluate code c = .ok v ∧
      failure = .evaluation none ("attributes `" ++ code ++ "` must evaluate to a map")

variable {e : Evaluator} {c : Context}

theorem interpolate_fails (escape : Bool) (segments : List Segment) :
    Fails (fun failure => ∃ code, .expression code ∈ segments ∧ FailsBy e c code failure)
      (interpolate e c escape segments) := by
  induction segments with
  | nil => exact .ok []
  | cons s rest ih =>
      rw [interpolate]
      refine .bind ?_ fun text => .bind ?_ fun _ => .ok _
      · intro failure failed
        cases s with
        | literal text => cases failed
        | expression code =>
            refine ⟨code, List.mem_cons_self .., .inl ?_⟩
            cases value : e.evaluate code c with
            | ok v =>
                simp only [segment, value] at failed
                cases failed
            | error reason =>
                simp only [segment, value] at failed
                cases failed
                rfl
      · refine ih.mono ?_
        rintro failure ⟨code, member, fails⟩
        exact ⟨code, List.mem_cons_of_mem s member, fails⟩

theorem openTag_fails (settings : RenderSettings) (tag : CompiledTag) :
    Fails (fun failure => ∃ code, tag.Computes code ∧ FailsBy e c code failure)
      (openTag e c settings tag) := by
  refine .bind (.foldlM_mem (fun set entry member => ?_) _) fun _ => .ok _
  match entry with
  | .fixed name value => exact .ok _
  | .dynamic name (.expression code) =>
      refine .bind ?_ fun _ => .ok _
      intro failure failed
      exact ⟨code, .value member, .inl failed⟩
  | .dynamic name (.interpolated segments) =>
      refine .bind ((interpolate_fails false segments).mono ?_) fun _ => .ok _
      rintro failure ⟨code, inside, fails⟩
      exact ⟨code, .part member inside, fails⟩
  | .splat code =>
      intro failure failed
      refine ⟨code, .splat member, ?_⟩
      cases value : e.evaluate code c with
      | error reason =>
          simp only [mergeEntry, value] at failed
          cases failed
          exact .inl value
      | ok v =>
          refine .inr ⟨v, value, ?_⟩
          simp only [mergeEntry, value, bind, Except.bind] at failed
          cases v <;> cases failed <;> rfl

end Render

theorem Fault.Own.not_formal {fault : Fault} (own : fault.Own) : ¬ fault.Formal := by
  cases fault <;> simp [Own, Formal] at own ⊢

namespace Renderer

theorem call_not_formal (render : Template → Context → Except Error String) (r : Renderer Value)
    (args : List Value) : Fails (fun fault => ¬ fault.Formal) (r.call render args) := by
  unfold call
  refine ((arguments_own args).mono fun _ => Fault.Own.not_formal).bind ?_
  rintro ⟨name, locals⟩
  dsimp only
  split
  · have rest (template : Template) : Fails (fun fault => ¬ fault.Formal) (do
        let text ← (render template (r.context (← localsOf locals))).mapError Fault.inPartial
        return Value.text text true) := by
      refine ((localsOf_own locals).mono fun _ => Fault.Own.not_formal).bind fun entries => ?_
      refine .bind ?_ fun _ => .ok _
      intro fault failed
      cases rendered : render template (r.context entries) with
      | ok text =>
          rw [rendered] at failed
          cases failed
      | error failure =>
          rw [rendered] at failed
          cases failed
          exact id
    exact .ite (.error id) (rest _)
  · exact .error id

theorem callInside_not_formal (n : Nat) (r : Renderer Value) (args : List Value) :
    Fails (fun fault => ¬ fault.Formal) (callInside (answerBy Template.tooDeep) n r args) := by
  cases n with
  | zero => exact call_not_formal Template.tooDeep r args
  | succ n =>
      rw [Template.callInside_succ]
      exact call_not_formal _ r args

end Renderer

namespace Expr

/-- An evaluation fails by values, or as one of its calls does. -/
theorem eval_not_formal {call : Calling}
    (calls : ∀ r args, Fails (fun fault => ¬ fault.Formal) (call r args)) (extra : List Function)
    (bindings : Dict Value) (e : Expr) :
    Fails (fun fault => ¬ fault.Formal) (eval ⟨extra, bindings, call⟩ e) := by
  intro fault failed
  have settled : Settled call Fault.Own id fun other => eval ⟨extra, bindings, other⟩ e :=
    eval_settled e
  cases settled with
  | ok v given =>
      rw [given call (.refl call)] at failed
      cases failed
  | own reason own given =>
      rw [given call (.refl call)] at failed
      cases failed
      exact own.not_formal
  | called r args reason answered given =>
      rw [given call reason (.refl call) answered] at failed
      cases failed
      exact calls r args reason answered

theorem exists_parse_of_check {code : String} (passes : check code = .ok ()) :
    ∃ e, parse code = .ok e := by
  unfold check at passes
  cases parsed : parse code with
  | ok e => exact ⟨e, rfl⟩
  | error fault =>
      rw [parsed] at passes
      cases passes

end Expr

/-- In a template compiled with a check, each expression that a tag computes for its attributes has
passed it, and nothing else keeps the tag from being opened. If the check is whether the expression
can be parsed, its evaluation cannot fail for its form. -/
theorem Template.checked_of_compile {source : String} {o : Options} {t : Template}
    {check : String → Except String Unit} (checks : o.syntaxCheck = some check)
    (compiled : Template.compile source o = .ok t) :
    ∀ (i : Instruction) (tag : CompiledTag), i.Among t.instructions → i.Opens tag →
      (∀ code, tag.Computes code → check code = .ok ()) ∧
      (∀ (e : Evaluator) (c : Context) (settings : RenderSettings) (failure : Error),
        Render.openTag e c settings tag = .error failure →
          ∃ code, tag.Computes code ∧ Render.FailsBy e c code failure) ∧
      (check = Expr.check → ∀ code, tag.Computes code → ∃ e, Expr.parse code = .ok e ∧
        ∀ (extra : List Function) (n : Nat) (c : Context),
          let env : Expr.Env := ⟨extra, c.bindings, callInside (answerBy tooDeep) n⟩
          ((Dialect.expressions extra).evaluatorWithin n).evaluate code c =
              (Expr.eval env e).mapError Fault.error ∧
            ∀ fault, Expr.eval env e = .error fault → ¬ fault.Formal) := by
  intro i tag among opens
  obtain ⟨parsed, line, tagged⟩ := Compile.exists_tag_of_compile compiled among opens
  have passes (code : String) (computes : tag.Computes code) : check code = .ok () :=
    Compile.check_of_tag checks tagged computes
  refine ⟨passes, ?_, ?_⟩
  · intro e c settings failure failed
    exact Render.openTag_fails settings tag failure failed
  · rintro rfl code computes
    obtain ⟨e, parses⟩ := Expr.exists_parse_of_check (passes code computes)
    refine ⟨e, parses, fun extra n c => ⟨?_, ?_⟩⟩
    · rw [Dialect.evaluatorWithin_eq]
      simp only [Dialect.evaluatorCalling, Evaluator.Expressions.evaluator,
        Evaluator.Expressions.evaluate, parses]
      rfl
    · exact Expr.eval_not_formal (callInside_not_formal n) extra c.bindings e

/-! A page with an attribute of each kind, under a script. -/

namespace Checking

def source : String := "- if x\n  %p\x7btitle: name, rest, id: \"a#\x7bn\x7d\"\x7d"

def tag : CompiledTag :=
  ⟨"p", .empty, [.dynamic "title" (.expression "name"), .splat "rest",
    .dynamic "id" (.interpolated [.literal "a", .expression "n"])], false, false⟩

def opened? : Except Error Template → Option CompiledTag
  | .ok ⟨_, [.script _ _ [.element _ tag _ _]], _⟩ => some tag
  | _ => none

theorem exists_of_opened {compiled : Except Error Template} {tag : CompiledTag}
    (opened : opened? compiled = some tag) :
    ∃ (t : Template) (i : Instruction), compiled = .ok t ∧ i.Among t.instructions ∧ i.Opens tag := by
  unfold opened? at opened
  split at opened
  · cases opened
    exact ⟨_, _, rfl, .inside (List.mem_singleton.mpr rfl) (.here (List.mem_singleton.mpr rfl)),
      .element⟩
  · cases opened

end Checking

theorem Template.checked_under_script : ∃ (t : Template) (i : Instruction),
    Template.compile Checking.source .standard = .ok t ∧ i.Among t.instructions ∧
      i.Opens Checking.tag ∧ Checking.tag.Computes "name" ∧ Checking.tag.Computes "rest" ∧
      Checking.tag.Computes "n" ∧ (∀ code, Checking.tag.Computes code → Expr.check code = .ok ()) ∧
      ∃ e, Expr.parse "n" = .ok e := by
  have opened : Checking.opened? (Template.compile Checking.source .standard) = some Checking.tag := by
    decide +kernel
  obtain ⟨t, i, compiled, among, opens⟩ := Checking.exists_of_opened opened
  have title : .dynamic "title" (.expression "name") ∈ Checking.tag.computed := by
    simp [Checking.tag]
  have id : .dynamic "id" (.interpolated [.literal "a", .expression "n"]) ∈ Checking.tag.computed := by
    simp [Checking.tag]
  have rest : Checking.tag.Computes "rest" := .splat (by simp [Checking.tag])
  have inside : Checking.tag.Computes "n" := .part id (by simp)
  obtain ⟨passes, -, parses⟩ :=
    Template.checked_of_compile rfl compiled i Checking.tag among opens
  obtain ⟨e, parsed, -⟩ := parses rfl "n" inside
  exact ⟨t, i, compiled, among, opens, .value title, rest, inside, passes, e, parsed⟩

end Haml
