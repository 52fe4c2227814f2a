import Haml.Proofs.Deepened
import Haml.Render
/-! Mirrored runs: an evaluator that gives the values of another one, deepened, in contexts that
mirror those of the other, leads to the same output, unless an evaluation fails that did not. -/

namespace Haml

variable {k : Nat} {F : Error → Prop} {R : Nat → Context → Context → Prop}

/-- Whether a run ends as another one does, in a related context, or else with one of certain
failures. -/
def EndsLike {α σ : Type} (F : Error → Prop) (R : Context → Context → Prop)
    (x y : Except Error α × Context × σ) : Prop :=
  (y.1 = x.1 ∧ R x.2.1 y.2.1 ∧ y.2.2 = x.2.2) ∨ ∃ e, F e ∧ y.1 = .error e

/-- Whether a script does what another one does as long as its blocks do. Contexts are related at a
level, and a block may run at a level of its own. -/
inductive Script.Mirrors (F : Error → Prop) (R : Nat → Context → Context → Prop) (m : Nat) :
    Script → Script → Prop
  | done {outcome : Except Error Branch} {c d : Context} :
      R m c d → Mirrors F R m (.done outcome c) (.done outcome d)
  | fails (s : Script) {e : Error} (d : Context) : F e → Mirrors F R m s (.done (.error e) d)
  | block (n : Nat) {c d : Context} {resume resume' : Except Error Unit → Context → Script} :
      R n c d →
      (∀ outcome c d, R n c d → Mirrors F R m (resume outcome c) (resume' outcome d)) →
      (∀ e d, ∃ d', resume' (.error e) d = .done (.error e) d') →
      Mirrors F R m (.block c resume) (.block d resume')

namespace Script

theorem Mirrors.once {m : Nat} {c d : Context} (here : R m c d) (branch : Branch)
    (hasBlock : Bool) :
    Mirrors F R m (Script.once branch hasBlock c) (Script.once branch hasBlock d) := by
  cases hasBlock with
  | false => exact .done here
  | true =>
      refine .block m here (fun outcome c d there => .done there) fun e d => ?_
      exact ⟨d, rfl⟩

theorem Mirrors.run {σ : Type} {m : Nat} {s t : Script}
    {body other : Context → σ → Except Error Unit × Context × σ} (mirrors : Mirrors F R m s t)
    (blocks : ∀ n c d a, R n c d → EndsLike F (R n) (body c a) (other d a)) (a : σ) :
    EndsLike F (R m) (s.run body a) (t.run other a) := by
  induction mirrors generalizing a with
  | done here => exact .inl ⟨rfl, here, rfl⟩
  | fails s d failing => exact .inr ⟨_, failing, rfl⟩
  | @block n c d resume resume' here _ passes ih =>
      have ran := blocks n c d a here
      rw [Script.run, Script.run]
      generalize body c a = first at ran
      generalize other d a = second at ran
      obtain ⟨outcome, c', state⟩ := first
      obtain ⟨outcome', d', state'⟩ := second
      rcases ran with ⟨same, there, kept⟩ | ⟨e, failing, failed⟩
      · cases same
        cases kept
        exact ih outcome c' d' there state
      · cases failed
        obtain ⟨last, ended⟩ := passes e d'
        dsimp only
        rw [ended]
        exact .inr ⟨e, failing, rfl⟩

end Script

/-- Whether an evaluator does what another one does, in contexts related to those of the other. -/
structure Evaluator.Mirrors (k : Nat) (F : Error → Prop) (R : Nat → Context → Context → Prop)
    (e f : Evaluator) : Prop where
  evaluate : ∀ {m c d}, R m c d → ∀ code,
    Follows F (Value.deepen k) (e.evaluate code c) (f.evaluate code d)
  execute : ∀ {m c d}, R m c d → ∀ code previous hasBlock,
    Script.Mirrors F R m (e.execute code c previous hasBlock) (f.execute code d previous hasBlock)

namespace Render

open Value

theorem written_deepen (escape : Bool) (v : Value) (text : List Char) :
    written escape (v.deepen k) text = written escape v text := by
  rw [written, written, isSafe_deepen]

theorem ofValue?_deepen (name : String) (v : Value) :
    Attribute.ofValue? name (v.deepen k) = Attribute.ofValue? name v := by
  have joined (items : List Value) :
      Attribute.joined name (items.map (deepen k)) = Attribute.joined name items := by
    simp [Attribute.joined, List.filter_map, Function.comp_def]
  cases v with
  | list items =>
      rw [deepen_list]
      exact congrArg some (joined items)
  | iter items sized =>
      rw [deepen_iter]
      exact congrArg some (joined items)
  | undefined | null | bool | int | float | text | function => rfl
  | _ => exact congrArg (fun s : String => some (AttributeValue.text s)) (display_deepen (k := k) _)

theorem mergeEntries_deepen (set : AttributeSet) (entries : List (Value × Value)) :
    mergeEntries set (entries.map (deepenEntry k)) = mergeEntries set entries := by
  induction entries generalizing set with
  | nil => rfl
  | cons entry rest ih =>
      rw [List.map_cons, mergeEntries, List.foldl_cons, deepenEntry]
      dsimp only
      rw [display_deepen, ofValue?_deepen]
      exact ih _

section

variable {e f : Evaluator} {c d : Context}
  (same : ∀ code, Follows F (deepen k) (e.evaluate code c) (f.evaluate code d))

include same

theorem output_follows (code : String) (escape : Bool) :
    Follows F id (output e c code escape) (output f d code escape) := by
  apply (same code).bind
  intro v
  dsimp only
  rw [shown_deepen, written_deepen]
  exact .ok _

theorem interpolate_follows (escape : Bool) (segments : List Segment) :
    Follows F id (interpolate e c escape segments) (interpolate f d escape segments) := by
  induction segments with
  | nil => exact .ok []
  | cons s rest ih =>
      have first : Follows F id (segment e c escape s) (segment f d escape s) := by
        cases s with
        | literal text => exact .ok text.toList
        | expression code =>
            apply (same code).bind
            intro v
            rw [shown_deepen, written_deepen]
            exact .ok _
      apply first.bind
      intro text
      apply ih.bind
      intro others
      exact .ok (text ++ others)

theorem mergeEntry_follows (set : AttributeSet) (entry : AttributeEntry) :
    Follows F id (mergeEntry e c set entry) (mergeEntry f d set entry) := by
  cases entry with
  | fixed name value => exact .ok _
  | dynamic name value =>
      cases value with
      | expression code =>
          apply (same code).bind
          intro v
          rw [ofValue?_deepen]
          exact .ok _
      | interpolated segments =>
          apply (interpolate_follows same false segments).bind
          intro text
          exact .ok _
  | splat code =>
      apply (same code).bind
      intro v
      cases v with
      | map entries =>
          rw [deepen_map]
          dsimp only
          rw [mergeEntries_deepen]
          exact .ok _
      | renderer r =>
          rw [deepen_renderer]
          exact .ok _
      | list items =>
          rw [deepen_list]
          exact .error _
      | iter items sized =>
          rw [deepen_iter]
          exact .error _
      | _ => exact .error _

theorem foldlM_mergeEntry_follows (entries : List AttributeEntry) (set : AttributeSet) :
    Follows F id (entries.foldlM (mergeEntry e c) set) (entries.foldlM (mergeEntry f d) set) := by
  induction entries generalizing set with
  | nil => exact .ok set
  | cons entry rest ih =>
      rw [List.foldlM_cons, List.foldlM_cons]
      exact (mergeEntry_follows same set entry).bind ih

theorem openTag_follows (settings : RenderSettings) (tag : CompiledTag) :
    Follows F id (openTag e c settings tag) (openTag f d settings tag) :=
  (foldlM_mergeEntry_follows same tag.computed tag.attributes).bind fun _ => .ok _

theorem content_follows (inner : ElementContent) :
    Follows F id (content e c inner) (content f d inner) := by
  cases inner with
  | empty | selfClosing | text => exact .ok _
  | interpolated segments escape => exact (interpolate_follows same escape segments).map fun _ => rfl
  | output code escape => exact (output_follows same code escape).map fun _ => rfl

def elementWritten (settings : RenderSettings) (depth : Nat) (tag : CompiledTag) (b : Buffer) :
    Except Error (List Char × Option (List Char)) → Written
  | .ok (opened, inner) =>
      (.ok (), glueIf tag.trimOuter
        (writeElement settings depth tag opened inner (glueIf tag.trimOuter b)))
  | .error error => (.error error, glueIf tag.trimOuter b)

/-- An instruction that runs no script writes the same, or fails as an evaluation fails. -/
theorem write_follows (settings : RenderSettings) (i : Instruction) (b : Buffer) :
    write f settings d i b = write e settings c i b ∨
      ∃ error, F error ∧ (write f settings d i b).1 = .error error := by
  have writes {α : Type} {x y : Except Error α} (parts : Follows F id x y)
      (out : Except Error α → Written) (fails : ∀ error, (out (.error error)).1 = .error error) :
      out y = out x ∨ ∃ error, F error ∧ (out y).1 = .error error := by
    cases parts with
    | same =>
        rw [id_map]
        exact .inl rfl
    | fails failing => exact .inr ⟨_, failing, fails _⟩
  cases i with
  | interpolated depth segments escape line =>
      exact writes (interpolate_follows same escape segments)
        (writeWith b · fun text => b.lines depth text) fun _ => rfl
  | output depth code escape line =>
      exact writes (output_follows same code escape)
        (writeWith b · fun text => b.lines depth text) fun _ => rfl
  | openTag depth tag line =>
      exact writes (openTag_follows same settings tag)
        (writeWith (glueIf tag.trimOuter b) · fun opened =>
          glueIf tag.trimInner ((glueIf tag.trimOuter b).line depth (opened ++ ['>']))) fun _ => rfl
  | element depth tag inner line =>
      have parts : Follows F id
          (do return (← openTag e c settings tag, ← content e c inner))
          (do return (← openTag f d settings tag, ← content f d inner)) := by
        apply (openTag_follows same settings tag).bind
        intro opened
        apply (content_follows same inner).bind
        intro inner
        exact .ok (opened, inner)
      exact writes parts (elementWritten settings depth tag b) fun _ => rfl
  | text | closeTag | filter | script => exact .inl rfl

end

variable (id : String) (settings : RenderSettings) {e f : Evaluator}

theorem locate_of_location {i : Instruction} {error : Error}
    (known : ∃ place, error.location? = some place) : locate id i error = error := by
  obtain ⟨place, known⟩ := known
  unfold locate
  split
  · exact Error.located_of_location known _
  · rfl

theorem step_mirrored_of_ne_script (mirrors : e.Mirrors k F R f) {i : Instruction}
    (plain : ∀ code line body, i ≠ .script code line body) (previous : Branch) {m : Nat}
    {c d : Context} (b : Buffer) (here : R m c d) :
    let ran := step e id settings i previous ⟨c, b⟩
    let other := step f id settings i previous ⟨d, b⟩
    EndsLike F (R m) (ran.1, ran.2.context, ran.2.buffer)
      (other.1, other.2.context, other.2.buffer) := by
  rw [step_eq_write plain, step_eq_write plain]
  dsimp only
  rcases write_follows (mirrors.evaluate here) settings i b with same | ⟨error, failing, failed⟩
  · rw [same]
    exact .inl ⟨rfl, here, rfl⟩
  · rw [failed]
    exact .inr ⟨error, failing, rfl⟩

mutual

theorem step_mirrored (mirrors : e.Mirrors k F R f)
    (closed : ∀ error, F error → ∃ place, error.location? = some place) (i : Instruction)
    (previous : Branch) {m : Nat} {c d : Context} (b : Buffer) (here : R m c d) :
    let ran := step e id settings i previous ⟨c, b⟩
    let other := step f id settings i previous ⟨d, b⟩
    EndsLike F (R m) (ran.1, ran.2.context, ran.2.buffer)
      (other.1, other.2.context, other.2.buffer) := by
  match i with
  | .script code line body =>
      have blocks : ∀ n c d b, R n c d →
          EndsLike F (R n) (block e id settings body c b) (block f id settings body d b) := by
        intro n c d b there
        exact steps_mirrored mirrors closed body .idle b there
      have ran := (mirrors.execute here code previous (!body.isEmpty)).run blocks b
      rw [step_script, step_script]
      exact ran
  | .text .. | .interpolated .. | .output .. | .element .. | .openTag .. | .closeTag ..
  | .filter .. =>
      refine step_mirrored_of_ne_script id settings mirrors ?_ previous b here
      intro code line body same
      cases same

theorem steps_mirrored (mirrors : e.Mirrors k F R f)
    (closed : ∀ error, F error → ∃ place, error.location? = some place) (is : List Instruction)
    (previous : Branch) {m : Nat} {c d : Context} (b : Buffer) (here : R m c d) :
    let ran := steps e id settings is previous ⟨c, b⟩
    let other := steps f id settings is previous ⟨d, b⟩
    EndsLike F (R m) (ran.1, ran.2.context, ran.2.buffer)
      (other.1, other.2.context, other.2.buffer) := by
  match is with
  | [] =>
      rw [steps, steps]
      exact .inl ⟨rfl, here, rfl⟩
  | i :: rest =>
      have ran := step_mirrored mirrors closed i previous b here
      rw [steps, steps]
      generalize step e id settings i previous ⟨c, b⟩ = first at ran
      generalize step f id settings i previous ⟨d, b⟩ = second at ran
      obtain ⟨outcome, ⟨c', b'⟩⟩ := first
      obtain ⟨outcome', ⟨d', b''⟩⟩ := second
      rcases ran with ⟨same, there, kept⟩ | ⟨error, failing, failed⟩
      · cases same
        cases kept
        cases outcome with
        | ok branch => exact steps_mirrored mirrors closed rest branch b' there
        | error failure => exact .inl ⟨rfl, there, rfl⟩
      -- The failure has its place already, so the instructions around do not give it theirs.
      · cases failed
        dsimp only
        rw [locate_of_location id (closed error failing)]
        exact .inr ⟨error, failing, rfl⟩

end

end Render

/-- What is true of the runs of scripts is true of the render of a whole template. -/
theorem Template.run_mirrored {e f : Evaluator} (mirrors : e.Mirrors k F R f)
    (closed : ∀ error, F error → ∃ place, error.location? = some place) (t : Template) {m : Nat}
    {c d : Context} (here : R m c d) : Follows F (fun text => text) (t.run e c).1 (t.run f d).1 := by
  have ran := Render.steps_mirrored t.id t.settings mirrors closed t.instructions .idle .empty here
  unfold Template.run
  rcases ran with ⟨same, -, kept⟩ | ⟨error, failing, failed⟩
  · dsimp only at same kept ⊢
    rw [same, kept]
    exact .of_eq (id_map _).symm
  · dsimp only at failed ⊢
    rw [failed]
    exact .fails _ failing

end Haml
