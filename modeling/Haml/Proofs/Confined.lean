import Haml.Render
/-! Confined runs: evaluators that agree on the contexts of a kind, and whose scripts stay among
them, lead to the same runs. -/

namespace Haml

variable {P : Context → Prop}

/-- Whether a script stays among the contexts of a kind, as long as its blocks do. -/
inductive Script.Stays (P : Context → Prop) : Script → Prop
  | done {outcome : Except Error Branch} {c : Context} : P c → Stays P (.done outcome c)
  | block {c : Context} {resume : Except Error Unit → Context → Script} :
      P c → (∀ outcome d, P d → Stays P (resume outcome d)) → Stays P (.block c resume)

theorem Script.Stays.once {c : Context} (here : P c) (branch : Branch) (hasBlock : Bool) :
    (Script.once branch hasBlock c).Stays P := by
  cases hasBlock with
  | true => exact .block here fun outcome d there => .done there
  | false => exact .done here

/-- Blocks that do the same in contexts of a kind make a script that stays there do the same. -/
theorem Script.Stays.run {σ : Type} {s : Script}
    {body other : Context → σ → Except Error Unit × Context × σ} (stays : s.Stays P)
    (blocks : ∀ c a, P c → body c a = other c a ∧ P (body c a).2.1) (a : σ) :
    s.run body a = s.run other a ∧ P (s.run body a).2.1 := by
  induction stays generalizing a with
  | done here => exact ⟨rfl, here⟩
  | @block c resume here _ ih =>
      obtain ⟨same, there⟩ := blocks c a here
      obtain ⟨rest, last⟩ := ih (body c a).1 (body c a).2.1 there (body c a).2.2
      refine ⟨?_, last⟩
      rw [Script.run, Script.run, ← same]
      exact rest

structure Evaluator.AgreeOn (P : Context → Prop) (e f : Evaluator) : Prop where
  evaluate : ∀ code c, P c → e.evaluate code c = f.evaluate code c
  execute : ∀ code c previous hasBlock, P c →
    e.execute code c previous hasBlock = f.execute code c previous hasBlock
  stays : ∀ code c previous hasBlock, P c → (e.execute code c previous hasBlock).Stays P

namespace Render

variable {e f : Evaluator}

section

variable {c : Context} (same : ∀ code, e.evaluate code c = f.evaluate code c)

include same

theorem interpolate_congr (escape : Bool) (segments : List Segment) :
    interpolate e c escape segments = interpolate f c escape segments := by
  induction segments with
  | nil => rfl
  | cons s rest ih =>
      rw [interpolate, interpolate, ih]
      cases s with
      | literal text => rfl
      | expression code => simp only [segment, same]

theorem mergeEntry_congr : mergeEntry e c = mergeEntry f c := by
  funext set entry
  cases entry with
  | fixed name value => rfl
  | dynamic name value =>
      cases value with
      | expression code => simp only [mergeEntry, same]
      | interpolated segments => simp only [mergeEntry, interpolate_congr same]
  | splat code => simp only [mergeEntry, same]

/-- An instruction that runs no script needs the values of expressions and nothing else. -/
theorem write_congr (settings : RenderSettings) (i : Instruction) (b : Buffer) :
    write e settings c i b = write f settings c i b := by
  have contents (inner : ElementContent) : content e c inner = content f c inner := by
    cases inner with
    | interpolated segments escape => simp only [content, interpolate_congr same]
    | output code escape => simp only [content, output, same]
    | _ => rfl
  cases i with
  | interpolated depth segments escape line => simp only [write, interpolate_congr same]
  | output depth code escape line => simp only [write, output, same]
  | element depth tag inner line => simp only [write, openTag, mergeEntry_congr same, contents]
  | openTag depth tag line => simp only [write, openTag, mergeEntry_congr same]
  | _ => rfl

end

variable (id : String) (settings : RenderSettings)

theorem step_confined_of_ne_script (agree : e.AgreeOn P f) {i : Instruction}
    (plain : ∀ code line body, i ≠ .script code line body) (previous : Branch) {p : Progress}
    (here : P p.context) :
    step e id settings i previous p = step f id settings i previous p ∧
      P (step e id settings i previous p).2.context := by
  have same := write_congr (fun code => agree.evaluate code p.context here) settings i p.buffer
  rw [step_eq_write plain, step_eq_write plain, same]
  exact ⟨rfl, here⟩

mutual

theorem step_confined (agree : e.AgreeOn P f) (i : Instruction) (previous : Branch) (p : Progress)
    (here : P p.context) :
    step e id settings i previous p = step f id settings i previous p ∧
      P (step e id settings i previous p).2.context := by
  match i with
  | .script code line body =>
      have stays := agree.stays code p.context previous (!body.isEmpty) here
      have blocks : ∀ c b, P c → block e id settings body c b = block f id settings body c b ∧
          P (block e id settings body c b).2.1 := by
        intro c b there
        obtain ⟨same, last⟩ := steps_confined agree body .idle ⟨c, b⟩ there
        rw [block, block, ← same]
        exact ⟨rfl, last⟩
      obtain ⟨same, last⟩ := stays.run blocks p.buffer
      rw [step_script, step_script, ← agree.execute code p.context previous _ here, ← same]
      exact ⟨rfl, last⟩
  | .text .. | .interpolated .. | .output .. | .element .. | .openTag .. | .closeTag ..
  | .filter .. =>
      refine step_confined_of_ne_script id settings agree ?_ previous here
      intro code line body same
      cases same

theorem steps_confined (agree : e.AgreeOn P f) (is : List Instruction) (previous : Branch)
    (p : Progress) (here : P p.context) :
    steps e id settings is previous p = steps f id settings is previous p ∧
      P (steps e id settings is previous p).2.context := by
  match is with
  | [] =>
      rw [steps, steps]
      exact ⟨rfl, here⟩
  | i :: rest =>
      obtain ⟨same, there⟩ := step_confined agree i previous p here
      rw [steps, steps, ← same]
      generalize step e id settings i previous p = ran at there
      obtain ⟨outcome, p⟩ := ran
      cases outcome with
      | error failure => exact ⟨rfl, there⟩
      | ok branch => exact steps_confined agree rest branch p there

end

end Render

theorem Template.run_confined {e f : Evaluator} (agree : e.AgreeOn P f) (t : Template) {c : Context}
    (here : P c) : t.run e c = t.run f c ∧ P (t.run e c).2 := by
  obtain ⟨same, there⟩ :=
    Render.steps_confined t.id t.settings agree t.instructions .idle ⟨c, .empty⟩ here
  rw [Template.run, Template.run, ← same]
  exact ⟨rfl, there⟩

end Haml
