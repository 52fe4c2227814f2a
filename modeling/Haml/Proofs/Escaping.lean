import Haml.Proofs.Emission
import Haml.Proofs.Markup
import Haml.Render
/-! Escaping: where texts and attributes are escaped and nothing says otherwise, the angle brackets
of an output do not depend on the characters of evaluated texts. -/

namespace Haml

open List (Forall₂)

open Markup

/-- Whether nothing on a line asks for unescaped output. -/
def NodeKind.Escapes : NodeKind → Prop
  | .output _ escaping => escaping ≠ .never
  | .tag t => ∀ code, t.content ≠ some (.output code .never)
  | .filter .. => False
  | .text _ | .script _ | .comment _ | .silentComment | .doctype _ => True

inductive Node.Escapes : Node → Prop
  | intro {kind : NodeKind} {line : Nat} {children : List Node} :
      kind.Escapes → (∀ n ∈ children, n.Escapes) → Node.Escapes ⟨kind, line, children⟩

def ElementContent.Escapes : ElementContent → Prop
  | .interpolated _ escape | .output _ escape => escape = true
  | .empty | .selfClosing | .text _ => True

inductive Instruction.Escapes : Instruction → Prop
  | text (depth : Nat) (text : String) : Escapes (.text depth text)
  | interpolated (depth : Nat) (segments : List Segment) (line : Nat) :
      Escapes (.interpolated depth segments true line)
  | output (depth : Nat) (code : String) (line : Nat) : Escapes (.output depth code true line)
  | element {depth : Nat} {tag : CompiledTag} {content : ElementContent} {line : Nat} :
      content.Escapes → Escapes (.element depth tag content line)
  | openTag (depth : Nat) (tag : CompiledTag) (line : Nat) : Escapes (.openTag depth tag line)
  | closeTag (depth : Nat) (name : String) (trimInner trimOuter : Bool) :
      Escapes (.closeTag depth name trimInner trimOuter)
  | script {code : String} {line : Nat} {body : List Instruction} :
      (∀ i ∈ body, i.Escapes) → Escapes (.script code line body)

namespace Compile

variable {o : Options}

theorem escapes_of_ne_never (html : o.escapeHtml = true) {escaping : Escaping}
    (standard : escaping ≠ .never) : escapes o escaping = true := by
  cases escaping with
  | standard => exact html
  | always => rfl
  | never => exact absurd rfl standard

theorem textLine_escapes (html : o.escapeHtml = true) {depth line : Nat} {text : String}
    {i : Instruction} (compiled : textLine o depth text line = .ok i) : i.Escapes := by
  obtain ⟨parts, -, rest⟩ := bind_ok compiled
  cases parts with
  | fixed text =>
      cases rest
      exact .text depth text
  | interpolated segments =>
      cases rest
      rw [html]
      exact .interpolated depth segments line

theorem content_escapes (html : o.escapeHtml = true) {t : Tag} {line : Nat}
    {inner : ElementContent} (standard : (NodeKind.tag t).Escapes)
    (compiled : content o t line = .ok inner) : inner.Escapes := by
  unfold content at compiled
  split at compiled
  · cases compiled
    split <;> trivial
  · obtain ⟨parts, -, rest⟩ := bind_ok compiled
    cases parts with
    | fixed text =>
        cases rest
        trivial
    | interpolated segments =>
        cases rest
        exact html
  · next code escaping written =>
      cases compiled
      split
      · trivial
      · refine escapes_of_ne_never html ?_
        rintro rfl
        exact standard code written

theorem carries_escapes (html : o.escapeHtml = true) :
    Carries o Node.Escapes Instruction.Escapes where
  children := by
    intro kind line children escapesNode
    obtain ⟨-, below⟩ := escapesNode
    exact below
  element := by
    intro depth t line children compiled inner escapesNode _ filled
    obtain ⟨kind, -⟩ := escapesNode
    exact .element (content_escapes html kind filled)
  openTag := fun _ => .openTag ..
  closeTag := .closeTag
  text := .text
  textLine := textLine_escapes html
  output := by
    intro depth code escaping line children _ escapesNode
    obtain ⟨kind, -⟩ := escapesNode
    rw [escapes_of_ne_never html kind]
    exact .output ..
  script := fun _ => .script
  filter := by
    intro depth name body line children f escapesNode _
    obtain ⟨kind, -⟩ := escapesNode
    exact kind.elim

end Compile

inductive Instruction.Splats (code : String) : Instruction → Prop
  | element {depth : Nat} {tag : CompiledTag} {content : ElementContent} {line : Nat} :
      .splat code ∈ tag.computed → Splats code (.element depth tag content line)
  | openTag {depth : Nat} {tag : CompiledTag} {line : Nat} :
      .splat code ∈ tag.computed → Splats code (.openTag depth tag line)
  | script {other : String} {line : Nat} {body : List Instruction} {i : Instruction} :
      i ∈ body → Splats code i → Splats code (.script other line body)

/-- Whether the keys of maps are the same texts or hold no angle brackets. -/
def Value.KeysAlike (xs ys : List (Value × Value)) : Prop :=
  Forall₂ (fun k l => k.display = l.display ∨
    AttributeSet.isMarked k.display = false ∧ AttributeSet.isMarked l.display = false)
    (xs.map Prod.fst) (ys.map Prod.fst)

def Evaluator.KeysAlike (e f : Evaluator) (code : String) : Prop :=
  ∀ c d xs ys, Context.Alike c d → e.evaluate code c = .ok (.map xs) →
    f.evaluate code d = .ok (.map ys) → Value.KeysAlike xs ys

namespace Render

/-- Texts with the same angle brackets. -/
def SameMarkup (cs ds : List Char) : Prop := angles cs = angles ds

variable {e f : Evaluator} {c d : Context}

theorem written_plain {v : Value} (raw : v.isSafe = false) (text : List Char) :
    angles (written true v text) = [] := by
  rw [written, raw]
  exact angles_escapeChars text

theorem output_alike (alike : e.Alike f) (contexts : c.Alike d) (code : String) :
    Together SameMarkup (output e c code true) (output f d code true) := by
  refine (alike.evaluate code c d contexts).bind fun v w values => .ok ?_
  have raw : w.isSafe = false := values.1.isSafe_eq.symm.trans values.2
  rw [SameMarkup, written_plain values.2, written_plain raw]

theorem segment_alike (alike : e.Alike f) (contexts : c.Alike d) (s : Segment) :
    Together SameMarkup (segment e c true s) (segment f d true s) := by
  cases s with
  | literal text => exact .ok rfl
  | expression code =>
      refine (alike.evaluate code c d contexts).bind fun v w values => .ok ?_
      have raw : w.isSafe = false := values.1.isSafe_eq.symm.trans values.2
      rw [SameMarkup, written_plain values.2, written_plain raw]

/-- What the texts of segments have in common carries over to a whole text. -/
theorem interpolate_together {R : List Char → List Char → Prop} {escape : Bool} (nil : R [] [])
    (append : ∀ cs ds cs' ds', R cs ds → R cs' ds' → R (cs ++ cs') (ds ++ ds'))
    (each : ∀ s, Together R (segment e c escape s) (segment f d escape s))
    (segments : List Segment) :
    Together R (interpolate e c escape segments) (interpolate f d escape segments) := by
  induction segments with
  | nil => exact .ok nil
  | cons s rest ih =>
      rw [interpolate, interpolate]
      refine (each s).bind fun text other first => ?_
      exact ih.bind fun texts others more => .ok (append _ _ _ _ first more)

theorem interpolate_alike (alike : e.Alike f) (contexts : c.Alike d) (segments : List Segment) :
    Together SameMarkup (interpolate e c true segments) (interpolate f d true segments) := by
  refine interpolate_together (R := SameMarkup) rfl (fun cs ds cs' ds' first more => ?_)
    (segment_alike alike contexts) segments
  rw [SameMarkup, angles_append, angles_append, first, more]

theorem bothOk_segment (alike : e.Alike f) (contexts : c.Alike d) (escape : Bool) (s : Segment) :
    BothOk (segment e c escape s) (segment f d escape s) := by
  cases s with
  | literal text => exact .ok trivial
  | expression code => exact (alike.evaluate code c d contexts).bind fun _ _ _ => .ok trivial

theorem bothOk_interpolate (alike : e.Alike f) (contexts : c.Alike d) (escape : Bool)
    (segments : List Segment) :
    BothOk (interpolate e c escape segments) (interpolate f d escape segments) :=
  interpolate_together trivial (fun _ _ _ _ _ _ => trivial) (bothOk_segment alike contexts escape)
    segments

theorem mergeEntries_alike {xs ys : List (Value × Value)} (keys : Value.KeysAlike xs ys)
    (values : Forall₂ Value.Alike (xs.map Prod.snd) (ys.map Prod.snd)) {s t : AttributeSet}
    (sets : s.Alike t) : (mergeEntries s xs).Alike (mergeEntries t ys) := by
  unfold Value.KeysAlike at keys
  induction xs generalizing ys s t with
  | nil =>
      cases ys with
      | nil => exact sets
      | cons y ys => cases keys
  | cons x xs ih =>
      cases ys with
      | nil => cases keys
      | cons y ys =>
          cases keys with
          | cons key keys =>
              cases values with
              | cons value values =>
                  refine ih keys values ?_
                  rcases key with same | ⟨plain, other⟩
                  · simp only [same]
                    exact sets.mergeComputed _ (Attribute.ofValue?_alike value _)
                  · unfold AttributeSet.Alike
                    rw [AttributeSet.marked_mergeComputed_of_plain plain,
                      AttributeSet.marked_mergeComputed_of_plain other]
                    exact sets

theorem mergeEntry_alike (alike : e.Alike f) (contexts : c.Alike d) {entry : AttributeEntry}
    (keys : ∀ code, entry = .splat code → e.KeysAlike f code) {s t : AttributeSet}
    (sets : s.Alike t) :
    Together AttributeSet.Alike (mergeEntry e c s entry) (mergeEntry f d t entry) := by
  cases entry with
  | fixed name value => exact .ok (sets.merge name (.same value))
  | dynamic name value =>
      cases value with
      | expression code =>
          refine (alike.evaluate code c d contexts).bind fun v w values => .ok ?_
          exact sets.mergeComputed name (Attribute.ofValue?_alike values.1 name)
      | interpolated segments =>
          refine (bothOk_interpolate alike contexts false segments).bind fun _ _ _ => .ok ?_
          exact sets.merge name trivial
  | splat code =>
      refine (alike.evaluate code c d contexts).bind_ok fun v w first second both => ?_
      cases both.1 with
      | same =>
          cases v with
          | map xs =>
              refine .ok (mergeEntries_alike ?_ (Value.forall₂_alike_same _) sets)
              exact keys code rfl c d xs xs contexts first second
          | renderer r => exact .ok sets
          | _ => exact .error _ _
      | @map xs ys _ values _ =>
          refine .ok (mergeEntries_alike ?_ values sets)
          exact keys code rfl c d xs ys contexts first second
      | renderer => exact .ok sets
      | text => exact .error _ _
      | list => exact .error _ _
      | iter => exact .error _ _

theorem openTag_alike (alike : e.Alike f) (contexts : c.Alike d) {settings : RenderSettings}
    (escapes : settings.escapeAttributes = true) (plain : isAngle settings.attributeWrapper = false)
    {tag : CompiledTag} (keys : ∀ code, .splat code ∈ tag.computed → e.KeysAlike f code) :
    Together SameMarkup (openTag e c settings tag) (openTag f d settings tag) := by
  have merged : Together AttributeSet.Alike (tag.computed.foldlM (mergeEntry e c) tag.attributes)
      (tag.computed.foldlM (mergeEntry f d) tag.attributes) := by
    refine Together.foldlM (fun entry member s t sets => ?_) (.same _)
    refine mergeEntry_alike alike contexts (fun code splat => keys code ?_) sets
    rw [← splat]
    exact member
  refine merged.bind fun s t sets => .ok ?_
  rw [SameMarkup, escapes, angles_append, angles_append, sets.angles_write_eq plain]

theorem content_alike (alike : e.Alike f) (contexts : c.Alike d) {content : ElementContent}
    (escapes : content.Escapes) :
    Together (Option.Rel SameMarkup) (Render.content e c content) (Render.content f d content) := by
  cases content with
  | empty => exact .ok (.some rfl)
  | selfClosing => exact .ok .none
  | text text => exact .ok (.some rfl)
  | interpolated segments escape =>
      cases escapes
      exact (interpolate_alike alike contexts segments).map fun _ _ same => .some same
  | output code escape =>
      cases escapes
      exact (output_alike alike contexts code).map fun _ _ same => .some same

theorem glueIf_sameMarkup (trim : Bool) {b b' : Buffer} (same : SameMarkup b.text b'.text) :
    SameMarkup (glueIf trim b).text (glueIf trim b').text := by
  rw [SameMarkup, ← angles_visible, visible_glueIf, angles_visible, same, ← angles_visible,
    ← visible_glueIf trim, angles_visible]

theorem angles_writeElement (settings : RenderSettings) (depth : Nat) (tag : CompiledTag)
    (opened : List Char) (inner : Option (List Char)) (b : Buffer) :
    angles (writeElement settings depth tag opened inner b).text =
      angles b.text ++ angles (elementText settings tag.name opened inner) := by
  rw [← angles_visible, visible_writeElement, angles_append, angles_visible, angles_visible]

theorem writeElement_sameMarkup (settings : RenderSettings) (depth : Nat) (tag : CompiledTag)
    {opened opened' : List Char} (opens : SameMarkup opened opened')
    {inner inner' : Option (List Char)} (fills : Option.Rel SameMarkup inner inner')
    {b b' : Buffer} (same : SameMarkup b.text b'.text) :
    SameMarkup (writeElement settings depth tag opened inner b).text
      (writeElement settings depth tag opened' inner' b').text := by
  unfold SameMarkup at opens same ⊢
  rw [angles_writeElement, angles_writeElement, same]
  cases fills with
  | none => simp only [elementText, angles_append, opens]
  | some fill =>
      unfold SameMarkup at fill
      simp only [elementText, angles_append, opens, fill]

theorem writeWith_alike {text other : Except Error (List Char)} {b b' : Buffer}
    {write write' : List Char → Buffer} (texts : Together SameMarkup text other)
    (same : SameMarkup b.text b'.text)
    (writes : ∀ cs ds, SameMarkup cs ds → SameMarkup (write cs).text (write' ds).text) :
    BothOk (writeWith b text write).1 (writeWith b' other write').1 ∧
      SameMarkup (writeWith b text write).2.text (writeWith b' other write').2.text := by
  cases texts with
  | ok texts => exact ⟨.ok trivial, writes _ _ texts⟩
  | error e e' => exact ⟨.error e e', same⟩

theorem lines_sameMarkup (depth : Nat) {b b' : Buffer} (same : SameMarkup b.text b'.text)
    (cs ds : List Char) (texts : SameMarkup cs ds) :
    SameMarkup (b.lines depth cs).text (b'.lines depth ds).text := by
  unfold SameMarkup at same texts ⊢
  rw [Buffer.angles_lines, Buffer.angles_lines, same, texts]

theorem line_sameMarkup (depth : Nat) {b b' : Buffer} (same : SameMarkup b.text b'.text)
    {cs ds : List Char} (texts : SameMarkup cs ds) :
    SameMarkup (b.line depth cs).text (b'.line depth ds).text := by
  unfold SameMarkup at same texts ⊢
  rw [Buffer.angles_line, Buffer.angles_line, same, texts]

structure Progress.Alike (p q : Progress) : Prop where
  context : Context.Alike p.context q.context
  markup : SameMarkup p.buffer.text q.buffer.text

section

variable (alike : e.Alike f) {settings : RenderSettings} (id : String)
  (escapesAttributes : settings.escapeAttributes = true)
  (plain : isAngle settings.attributeWrapper = false)

include alike escapesAttributes plain

theorem write_alike (contexts : c.Alike d) {i : Instruction} (escapes : i.Escapes)
    (keys : ∀ code, i.Splats code → e.KeysAlike f code) {b b' : Buffer}
    (same : SameMarkup b.text b'.text) :
    BothOk (write e settings c i b).1 (write f settings d i b').1 ∧
      SameMarkup (write e settings c i b).2.text (write f settings d i b').2.text := by
  cases escapes with
  | text depth text => exact ⟨.ok trivial, line_sameMarkup depth same rfl⟩
  | interpolated depth segments line =>
      exact writeWith_alike (interpolate_alike alike contexts segments) same
        (lines_sameMarkup depth same)
  | output depth code line =>
      exact writeWith_alike (output_alike alike contexts code) same (lines_sameMarkup depth same)
  | @element depth tag content line escapes =>
      have opens := openTag_alike alike contexts escapesAttributes plain
        fun code splat => keys code (.element splat)
      have fills := content_alike alike contexts escapes
      have glued := glueIf_sameMarkup tag.trimOuter same
      simp only [write]
      generalize openTag e c settings tag = x at opens
      generalize openTag f d settings tag = y at opens
      generalize Render.content e c content = x' at fills
      generalize Render.content f d content = y' at fills
      cases opens with
      | error e e' => exact ⟨.error e e', glued⟩
      | ok opens =>
          cases fills with
          | error e e' => exact ⟨.error e e', glued⟩
          | ok fills =>
              exact ⟨.ok trivial, glueIf_sameMarkup tag.trimOuter
                (writeElement_sameMarkup settings depth tag opens fills glued)⟩
  | openTag depth tag line =>
      have opens := openTag_alike alike contexts escapesAttributes plain
        fun code splat => keys code (.openTag splat)
      have glued := glueIf_sameMarkup tag.trimOuter same
      refine writeWith_alike opens glued fun cs ds texts => ?_
      refine glueIf_sameMarkup tag.trimInner (line_sameMarkup depth glued ?_)
      unfold SameMarkup at texts ⊢
      rw [angles_append, angles_append, texts]
  | closeTag depth name trimInner trimOuter =>
      exact ⟨.ok trivial, glueIf_sameMarkup trimOuter
        (line_sameMarkup depth (glueIf_sameMarkup trimInner same) rfl)⟩
  | script => exact ⟨.ok trivial, same⟩

end

def KeepsAlike (e f : Evaluator) (id : String) (settings : RenderSettings) (i : Instruction) :
    Prop :=
  ∀ previous p q, Progress.Alike p q →
    Together Eq (step e id settings i previous p).1 (step f id settings i previous q).1 ∧
    Progress.Alike (step e id settings i previous p).2 (step f id settings i previous q).2

section

variable (id : String) (settings : RenderSettings)

theorem steps_alike {is : List Instruction} (each : ∀ i ∈ is, KeepsAlike e f id settings i)
    (previous : Branch) (p q : Progress) (both : p.Alike q) :
    BothOk (steps e id settings is previous p).1 (steps f id settings is previous q).1 ∧
    Progress.Alike (steps e id settings is previous p).2 (steps f id settings is previous q).2 := by
  induction is generalizing previous p q with
  | nil =>
      rw [steps, steps]
      exact ⟨.ok trivial, both⟩
  | cons i rest ih =>
      have first := each i (List.mem_cons_self ..) previous p q both
      rw [steps, steps]
      generalize step e id settings i previous p = x at first
      generalize step f id settings i previous q = y at first
      obtain ⟨outcome, p⟩ := x
      obtain ⟨outcome', q⟩ := y
      obtain ⟨outcomes, both⟩ := first
      cases outcomes with
      | error e e' => exact ⟨.error _ _, both⟩
      | @ok branch branch' same =>
          cases same
          exact ih (fun j member => each j (List.mem_cons_of_mem i member)) branch p q both

theorem keepsAlike_script (alike : e.Alike f) (code : String) (line : Nat)
    {body : List Instruction} (each : ∀ i ∈ body, KeepsAlike e f id settings i) :
    KeepsAlike e f id settings (.script code line body) := by
  intro previous p q both
  have scripts := alike.execute code p.context q.context previous (!body.isEmpty) both.context
  have blocks : ∀ c d (b b' : Buffer), Context.Alike c d → SameMarkup b.text b'.text →
      BothOk (block e id settings body c b).1 (block f id settings body d b').1 ∧
      Context.Alike (block e id settings body c b).2.1 (block f id settings body d b').2.1 ∧
      SameMarkup (block e id settings body c b).2.2.text
        (block f id settings body d b').2.2.text := by
    intro c d b b' contexts markup
    have ran := steps_alike id settings each .idle ⟨c, b⟩ ⟨d, b'⟩ ⟨contexts, markup⟩
    exact ⟨ran.1, ran.2.context, ran.2.markup⟩
  rw [step_script, step_script]
  have ran := scripts.run blocks both.markup
  exact ⟨ran.1, ran.2.1, ran.2.2⟩

variable (alike : e.Alike f) (escapesAttributes : settings.escapeAttributes = true)
  (plain : isAngle settings.attributeWrapper = false)

include alike escapesAttributes plain

theorem keepsAlike_of_ne_script {i : Instruction} (escapes : i.Escapes)
    (keys : ∀ code, i.Splats code → e.KeysAlike f code)
    (bare : ∀ code line body, i ≠ .script code line body) : KeepsAlike e f id settings i := by
  intro previous p q both
  have writes := write_alike alike escapesAttributes plain both.context escapes keys both.markup
  rw [step_eq_write bare, step_eq_write bare]
  exact ⟨writes.1.map fun _ _ _ => rfl, both.context, writes.2⟩

theorem keepsAlike_of_escapes {i : Instruction} (escapes : i.Escapes)
    (keys : ∀ code, i.Splats code → e.KeysAlike f code) : KeepsAlike e f id settings i := by
  have bare := fun i => @keepsAlike_of_ne_script e f id settings alike escapesAttributes plain i
  induction escapes with
  | @script code line body _ ih =>
      refine keepsAlike_script id settings alike code line fun i member => ?_
      exact ih i member fun other splat => keys other (.script member splat)
  | text depth text => exact bare _ (.text depth text) keys nofun
  | interpolated depth segments line => exact bare _ (.interpolated depth segments line) keys nofun
  | output depth code line => exact bare _ (.output depth code line) keys nofun
  | element escapes => exact bare _ (.element escapes) keys nofun
  | openTag depth tag line => exact bare _ (.openTag depth tag line) keys nofun
  | closeTag depth name trimInner trimOuter =>
      exact bare _ (.closeTag depth name trimInner trimOuter) keys nofun

end

end Render

open Render

/-- Two renders of a template that escapes texts and attributes both fail, or have the same angle
brackets, if the values of its expressions are alike, none of them a safe text, and the keys of its
attribute maps, which are not escaped, hold no angle brackets of their own. -/
theorem Template.run_sameMarkup {forest : Forest} {o : Options} {t : Template}
    (html : o.escapeHtml = true) (attributes : o.escapeAttributes = true)
    (wrapper : isAngle o.attributeWrapper = false) (escapes : ∀ n ∈ forest, n.Escapes)
    (compiled : forest.compile o = .ok t) {e f : Evaluator} (alike : e.Alike f)
    (keys : ∀ i ∈ t.instructions, ∀ code, i.Splats code → e.KeysAlike f code) {c d : Context}
    (contexts : c.Alike d) :
    Together (fun a b => angles a.toList = angles b.toList) (t.run e c).1 (t.run f d).1 := by
  obtain ⟨emitted, -, settings⟩ := Compile.emitsAll_of_compile compiled
  have instructions := emitted.all (Compile.carries_escapes html) escapes
  have each : ∀ i ∈ t.instructions, KeepsAlike e f t.id t.settings i := by
    intro i member
    refine keepsAlike_of_escapes t.id t.settings alike ?_ ?_ (instructions i member) (keys i member)
    · rw [settings]
      exact attributes
    · rw [settings]
      exact wrapper
  have ran := steps_alike t.id t.settings each .idle ⟨c, .empty⟩ ⟨d, .empty⟩ ⟨contexts, rfl⟩
  rw [Template.run, Template.run]
  generalize steps e t.id t.settings t.instructions .idle ⟨c, .empty⟩ = x at ran
  generalize steps f t.id t.settings t.instructions .idle ⟨d, .empty⟩ = y at ran
  obtain ⟨outcome, p⟩ := x
  obtain ⟨outcome', q⟩ := y
  refine ran.1.map fun _ _ _ => ?_
  rw [String.toList_ofList, String.toList_ofList]
  exact ran.2.markup

def Evaluator.knowing (key text : String) : Evaluator :=
  .ofValues fun code _ =>
    .ok (if code = "m" then .map [(.ofString key, .ofString text)] else .ofString text)

theorem Evaluator.knowing_alike {key key' text text' : String} (keys : key.length = key'.length)
    (texts : text.length = text'.length) : (knowing key text).Alike (knowing key' text') := by
  refine ofValues_alike fun code _ _ _ => .ok ?_
  split
  · refine ⟨.map (.cons (.text keys) .nil) (.cons (.text texts) .nil) ?_, rfl⟩
    exact Value.sameOrder_singleton key key'
  · exact ⟨.text texts, rfl⟩

theorem Evaluator.knowing_keysAlike (key text text' code : String) :
    (knowing key text).KeysAlike (knowing key text') code := by
  intro c d xs ys _ first second
  simp only [knowing, ofValues] at first second
  split at first
  · next known =>
      rw [if_pos known] at second
      cases first
      cases second
      exact .cons (.inl rfl) .nil
  · cases first

def escaping : Options := { Options.standard with escapeHtml := true, syntaxCheck := none }

def everyWay : Forest :=
  [⟨.tag ⟨"p", [.splat "m", .dynamic "id" (.expression "x"),
      .dynamic "name" (.interpolated [.expression "x"])], false, false, false,
      some (.output "x" .standard)⟩, 1, []⟩,
    ⟨.script "for c in x", 2, [⟨.output "c" .always, 3, []⟩, ⟨.text "a #\x7bx\x7d", 4, []⟩]⟩]

theorem everyWay_escapes : ∀ n ∈ everyWay, n.Escapes := by
  intro n member
  rcases List.mem_cons.mp member with rfl | others
  · exact .intro (by simp [NodeKind.Escapes]) nofun
  · obtain rfl := List.mem_singleton.mp others
    refine .intro trivial fun n below => ?_
    rcases List.mem_cons.mp below with rfl | last
    · exact .intro (by simp [NodeKind.Escapes]) nofun
    · obtain rfl := List.mem_singleton.mp last
      exact .intro trivial nofun

theorem everyWay_sameMarkup :
    ∃ t, everyWay.compile escaping = .ok t ∧
      Together (fun a b => angles a.toList = angles b.toList)
        (t.run (.knowing "title" "<b>") (.new .echo)).1
        (t.run (.knowing "title" "a b") (.new .echo)).1 := by
  have compiles : (everyWay.compile escaping).isOk = true := by decide +kernel
  cases compiled : everyWay.compile escaping with
  | error e =>
      rw [compiled] at compiles
      cases compiles
  | ok t =>
      have alike : (Evaluator.knowing "title" "<b>").Alike (.knowing "title" "a b") :=
        Evaluator.knowing_alike rfl rfl
      exact ⟨t, rfl, t.run_sameMarkup rfl rfl rfl everyWay_escapes compiled alike
        (fun _ _ code _ => Evaluator.knowing_keysAlike "title" "<b>" "a b" code) (.same _)⟩

/-! Keys of attribute maps join the output as they are, and so does the quote around a value. -/

namespace Unescaped

def keyed : Tag := ⟨"p", [.splat "m"], false, false, false, none⟩

def classed : Tag := ⟨"p", [.dynamic "class" (.expression "x")], false, false, false, none⟩

theorem read_keyed : Document.read .auto "%p\x7bm\x7d" = .ok [⟨.tag keyed, 1, []⟩] :=
  by decide +kernel

theorem read_classed : Document.read .auto "%p\x7bclass: x\x7d" = .ok [⟨.tag classed, 1, []⟩] :=
  by decide +kernel

theorem escapes_of_content_none {t : Tag} (empty : t.content = none) :
    ∀ n ∈ [Node.mk (.tag t) 1 []], n.Escapes := by
  intro n member
  obtain rfl := List.mem_singleton.mp member
  refine .intro (fun code => ?_) nofun
  rw [empty]
  nofun

end Unescaped

theorem markup_unescaped :
    (∃ forest t, Document.read .auto "%p\x7bm\x7d" = .ok forest ∧ (∀ n ∈ forest, n.Escapes) ∧
      Forest.compile forest escaping = .ok t ∧
      (Evaluator.knowing "<b>" "x").Alike (.knowing "abc" "x") ∧
      (t.run (.knowing "<b>" "x") (.new .echo)).1 = .ok "<p <b>='x'></p>\n" ∧
      (t.run (.knowing "abc" "x") (.new .echo)).1 = .ok "<p abc='x'></p>\n") ∧
    (∃ forest t, Document.read .auto "%p\x7bclass: x\x7d" = .ok forest ∧
      (∀ n ∈ forest, n.Escapes) ∧
      Forest.compile forest { escaping with attributeWrapper := '<' } = .ok t ∧
      (Evaluator.knowing "k" "   ").Alike (.knowing "k" "a b") ∧
      (t.run (.knowing "k" "   ") (.new .echo)).1 = .ok "<p></p>\n" ∧
      (t.run (.knowing "k" "a b") (.new .echo)).1 = .ok "<p class=<a b<></p>\n") := by
  refine ⟨⟨_, _, Unescaped.read_keyed, Unescaped.escapes_of_content_none rfl, rfl,
    Evaluator.knowing_alike rfl rfl, rfl, rfl⟩, ⟨_, _, Unescaped.read_classed,
    Unescaped.escapes_of_content_none rfl, rfl, Evaluator.knowing_alike rfl rfl, rfl, rfl⟩⟩

end Haml
