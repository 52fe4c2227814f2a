import Haml.Attribute.Computed
import Haml.Buffer
import Haml.Evaluator
import Haml.Value.Access
/-! Renders: the run of a template's instructions with a context and an evaluator. -/

namespace Haml

namespace Render

/-- The text of a value as it joins the output. A safe text is markup already. -/
def written (escape : Bool) (v : Value) (text : List Char) : List Char :=
  if escape && !v.isSafe then Markup.escapeChars text else text

section

variable (e : Evaluator) (c : Context)

/-- The text of an output; one line end at the end of it counts for nothing. -/
def output (code : String) (escape : Bool) : Except Error (List Char) := do
  let v ← e.evaluate code c
  let text := v.shown.toList
  return written escape v ((Text.dropSuffix? ['\n'] text).getD text)

def segment (escape : Bool) : Segment → Except Error (List Char)
  | .literal text => .ok text.toList
  | .expression code => do
      let v ← e.evaluate code c
      return written escape v v.shown.toList

def interpolate (escape : Bool) : List Segment → Except Error (List Char)
  | [] => .ok []
  | s :: rest => do
      let text ← segment e c escape s
      return text ++ (← interpolate escape rest)

def mergeEntries (set : AttributeSet) (entries : List (Value × Value)) : AttributeSet :=
  entries.foldl (fun set (k, v) =>
    set.mergeComputed k.display (Attribute.ofValue? k.display v)) set

def mergeEntry (set : AttributeSet) : AttributeEntry → Except Error AttributeSet
  | .fixed name value => .ok (set.merge name value)
  | .dynamic name (.expression code) => do
      let v ← e.evaluate code c
      return set.mergeComputed name (Attribute.ofValue? name v)
  | .dynamic name (.interpolated segments) => do
      let text ← interpolate e c false segments
      return set.merge name (.text (String.ofList text))
  | .splat code => do
      match ← e.evaluate code c with
      | .map entries => return mergeEntries set entries
      | .renderer _ => return set
      | _ => throw (.evaluation none ("attributes `" ++ code ++ "` must evaluate to a map"))

def openTag (settings : RenderSettings) (tag : CompiledTag) : Except Error (List Char) := do
  let set ← tag.computed.foldlM (mergeEntry e c) tag.attributes
  return ('<' :: tag.name.toList) ++
    (set.write settings.attributeWrapper settings.escapeAttributes).toList

/-- What stands inside an element on one line; none if nothing can. -/
def content : ElementContent → Except Error (Option (List Char))
  | .selfClosing => .ok none
  | .empty => .ok (some [])
  | .text text => .ok (some text.toList)
  | .interpolated segments escape => some <$> interpolate e c escape segments
  | .output code escape => some <$> output e c code escape

end

def endTag (name : String) : List Char := "</".toList ++ name.toList ++ ['>']

/-- Writes an element. Content of several lines stands on lines of its own, unless the tag trims
its inside. -/
def writeElement (settings : RenderSettings) (depth : Nat) (tag : CompiledTag)
    (opened : List Char) (inner : Option (List Char)) (b : Buffer) : Buffer :=
  match inner with
  | none => b.line depth (opened ++ (if settings.html then ['>'] else " />".toList))
  | some inner =>
      if inner.contains '\n' && !tag.trimInner then
        ((b.line depth (opened ++ ['>'])).lines (depth + 1) inner).line depth (endTag tag.name)
      else b.line depth (opened ++ ['>'] ++ inner ++ endTag tag.name)

def glueIf (trim : Bool) (b : Buffer) : Buffer := if trim then b.glue else b

def filterError (name : String) : FilterError → Error
  | .missingDependency required => .filterUnavailable name required none
  | .failed reason => .evaluation none ("filter `" ++ name ++ "` failed: " ++ reason)

/-- What a step leaves of the output: all of it, or what stood there when it failed. -/
abbrev Written := Except Error Unit × Buffer

def writeWith (b : Buffer) (text : Except Error (List Char)) (write : List Char → Buffer) :
    Written :=
  match text with
  | .ok text => (.ok (), write text)
  | .error e => (.error e, b)

def write (e : Evaluator) (settings : RenderSettings) (c : Context) (i : Instruction)
    (b : Buffer) : Written :=
  match i with
  | .text depth text => (.ok (), b.line depth text.toList)
  | .interpolated depth segments escape _ =>
      writeWith b (interpolate e c escape segments) fun text => b.lines depth text
  | .output depth code escape _ =>
      writeWith b (output e c code escape) fun text => b.lines depth text
  | .element depth tag inner _ =>
      let b := glueIf tag.trimOuter b
      let parts := do
        let opened ← openTag e c settings tag
        return (opened, ← content e c inner)
      match parts with
      | .ok (opened, inner) =>
          (.ok (), glueIf tag.trimOuter (writeElement settings depth tag opened inner b))
      | .error e => (.error e, b)
  | .openTag depth tag _ =>
      let b := glueIf tag.trimOuter b
      writeWith b (openTag e c settings tag) fun opened =>
        glueIf tag.trimInner (b.line depth (opened ++ ['>']))
  | .closeTag depth name trimInner trimOuter =>
      (.ok (), glueIf trimOuter ((glueIf trimInner b).line depth (endTag name)))
  | .filter depth name filter text _ =>
      writeWith b ((String.toList <$> filter text).mapError (filterError name)) fun text =>
        b.lines depth text
  | .script .. => (.ok (), b)

structure Progress where
  context : Context
  buffer : Buffer

/-- A failure belongs to the line of the innermost instruction it passes that has one. -/
def locate (id : String) (i : Instruction) (e : Error) : Error :=
  match i.line? with
  | some line => e.located ⟨id, line⟩
  | none => e

mutual

def step (e : Evaluator) (id : String) (settings : RenderSettings) :
    Instruction → Branch → Progress → Except Error Branch × Progress
  | .script code _ body, previous, p =>
      let script := e.execute code p.context previous !body.isEmpty
      let (outcome, context, buffer) := script.run
        (fun context buffer =>
          let (outcome, p) := steps e id settings body .idle ⟨context, buffer⟩
          (outcome, p.context, p.buffer))
        p.buffer
      (outcome, ⟨context, buffer⟩)
  | i, _, p =>
      let (outcome, buffer) := write e settings p.context i p.buffer
      (outcome.map fun _ => .idle, ⟨p.context, buffer⟩)

/-- Runs instructions in order, each with the branch that the one before it has left. -/
def steps (e : Evaluator) (id : String) (settings : RenderSettings) :
    List Instruction → Branch → Progress → Except Error Unit × Progress
  | [], _, p => (.ok (), p)
  | i :: rest, previous, p =>
      match step e id settings i previous p with
      | (.ok branch, p) => steps e id settings rest branch p
      | (.error failure, p) => (.error (locate id i failure), p)

end

theorem step_eq_write {e : Evaluator} {id : String} {settings : RenderSettings} {i : Instruction}
    {previous : Branch} {p : Progress}
    (plain : ∀ code line body, i ≠ .script code line body) :
    step e id settings i previous p =
      ((write e settings p.context i p.buffer).1.map fun _ => .idle,
        ⟨p.context, (write e settings p.context i p.buffer).2⟩) := by
  cases i with
  | script code line body => exact absurd rfl (plain code line body)
  | _ => rw [step.eq_def]

def block (e : Evaluator) (id : String) (settings : RenderSettings) (body : List Instruction)
    (c : Context) (b : Buffer) : Except Error Unit × Context × Buffer :=
  let ran := steps e id settings body .idle ⟨c, b⟩
  (ran.1, ran.2.context, ran.2.buffer)

theorem step_script {e : Evaluator} {id : String} {settings : RenderSettings} {code : String}
    {line : Nat} {body : List Instruction} {previous : Branch} {p : Progress} :
    step e id settings (.script code line body) previous p =
      let ran := (e.execute code p.context previous !body.isEmpty).run (block e id settings body)
        p.buffer
      (ran.1, ⟨ran.2.1, ran.2.2⟩) := by
  rw [step]
  rfl

theorem context_step_script {e : Evaluator} {id : String} {settings : RenderSettings}
    {code : String} {line : Nat} {body : List Instruction} {previous : Branch} {p : Progress} :
    (step e id settings (.script code line body) previous p).2.context =
      ((e.execute code p.context previous !body.isEmpty).run (block e id settings body)
        p.buffer).2.1 := by
  rw [step_script]

end Render

/-- Runs a template. The context comes back as its scripts have left it. -/
def Template.run (t : Template) (e : Evaluator) (c : Context) : Except Error String × Context :=
  let (outcome, p) := Render.steps e t.id t.settings t.instructions .idle ⟨c, .empty⟩
  (outcome.map fun _ => String.ofList p.buffer.text, p.context)

end Haml
