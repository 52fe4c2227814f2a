import Haml.Render
/-! Redrawn instructions: what a run writes is changed, and its scripts stay. The run is the same as
long as what is written stays in a relation to what was. -/

namespace Haml

namespace Script

variable {σ τ : Type} {body : Context → σ → Except Error Unit × Context × σ}
  {other : Context → τ → Except Error Unit × Context × τ} {R : σ → τ → Prop}

inductive Calls (body : Context → σ → Except Error Unit × Context × σ) :
    Script → σ → Context → σ → Prop
  | here {c : Context} {resume : Except Error Unit → Context → Script} {a : σ} :
      Calls body (.block c resume) a c a
  | later {c d : Context} {resume : Except Error Unit → Context → Script} {a b : σ} :
      Calls body (resume (body c a).1 (body c a).2.1) (body c a).2.2 d b →
      Calls body (.block c resume) a d b

theorem run_keeps {I : σ → Prop} (keeps : ∀ c a, I a → I (body c a).2.2) (s : Script) {a : σ}
    (start : I a) : I (s.run body a).2.2 := by
  induction s generalizing a with
  | done outcome c => exact start
  | block c resume ih => exact ih _ _ (keeps c a start)

theorem Calls.keeps {I : σ → Prop} {s : Script} {a b : σ} {c : Context}
    (keeps : ∀ c a, I a → I (body c a).2.2) (calls : Calls body s a c b) (start : I a) : I b := by
  induction calls with
  | here => exact start
  | @later c d resume a b _ ih => exact ih (keeps c a start)

/-- A script does not tell blocks apart that differ in the states they keep. -/
theorem run_related (s : Script) {a : σ} {b : τ} (start : R a b)
    (blocks : ∀ c a', Calls body s a c a' → ∀ b', R a' b' →
      (other c b').1 = (body c a').1 ∧ (other c b').2.1 = (body c a').2.1 ∧
        R (body c a').2.2 (other c b').2.2) :
    (s.run other b).1 = (s.run body a).1 ∧ (s.run other b).2.1 = (s.run body a).2.1 ∧
      R (s.run body a).2.2 (s.run other b).2.2 := by
  induction s generalizing a b with
  | done outcome c => exact ⟨rfl, rfl, start⟩
  | block c resume ih =>
      obtain ⟨outcome, context, related⟩ := blocks c a .here b start
      simp only [run]
      rw [outcome, context]
      exact ih _ _ related fun d a' calls => blocks d a' (.later calls)

end Script

mutual

def Instruction.redrawn (f : Instruction → Instruction) : Instruction → Instruction
  | .script code line body => .script code line (Instruction.redrawnAll f body)
  | i => f i

def Instruction.redrawnAll (f : Instruction → Instruction) : List Instruction → List Instruction
  | [] => []
  | i :: rest => i.redrawn f :: Instruction.redrawnAll f rest

end

namespace Instruction

theorem redrawnAll_eq_map (f : Instruction → Instruction) (is : List Instruction) :
    redrawnAll f is = is.map (redrawn f) := by
  induction is with
  | nil => rfl
  | cons i rest ih => rw [redrawnAll, ih, List.map_cons]

theorem redrawnAll_append (f : Instruction → Instruction) (is others : List Instruction) :
    redrawnAll f (is ++ others) = redrawnAll f is ++ redrawnAll f others := by
  simp only [redrawnAll_eq_map, List.map_append]

theorem isEmpty_redrawnAll (f : Instruction → Instruction) (is : List Instruction) :
    (redrawnAll f is).isEmpty = is.isEmpty := by
  rw [redrawnAll_eq_map, List.isEmpty_map]

def Writes (i : Instruction) : Prop := ∀ code line body, i ≠ .script code line body

theorem Writes.redrawn {f : Instruction → Instruction} {i : Instruction} (writes : i.Writes) :
    i.redrawn f = f i := by
  cases i with
  | script code line body => exact absurd rfl (writes code line body)
  | _ => rw [Instruction.redrawn.eq_def]

/-- Functions that leave instructions at their lines, and make no scripts of them. -/
structure Redraws (f : Instruction → Instruction) : Prop where
  writes : ∀ i, i.Writes → (f i).Writes
  line : ∀ i, i.Writes → (f i).line? = i.line?

theorem Redraws.line_redrawn {f : Instruction → Instruction} (redraws : Redraws f)
    (i : Instruction) : (i.redrawn f).line? = i.line? := by
  by_cases writes : i.Writes
  · rw [writes.redrawn, redraws.line i writes]
  · cases i with
    | script code line body => rw [redrawn, line?, line?]
    | _ => exact absurd nofun writes

end Instruction

namespace Render

open Instruction (Redraws redrawn redrawnAll isEmpty_redrawnAll)

section

variable (e : Evaluator) (id : String) (settings : RenderSettings)

/-- Whether a run comes to an instruction, and what it has come to there. -/
inductive Reaches : List Instruction → Branch → Progress → Instruction → Progress → Prop
  | here {i : Instruction} {rest : List Instruction} {previous : Branch} {p : Progress} :
      Reaches (i :: rest) previous p i p
  | inside {code : String} {line : Nat} {body rest : List Instruction} {previous : Branch}
      {p q : Progress} {c : Context} {b : Buffer} {i : Instruction} :
      Script.Calls (block e id settings body) (e.execute code p.context previous !body.isEmpty)
        p.buffer c b →
      Reaches body .idle ⟨c, b⟩ i q → Reaches (.script code line body :: rest) previous p i q
  | later {i j : Instruction} {rest : List Instruction} {previous branch : Branch}
      {p q r : Progress} :
      step e id settings i previous p = (.ok branch, q) → Reaches rest branch q j r →
      Reaches (i :: rest) previous p j r

variable {e id settings} in
theorem Reaches.holds {is : List Instruction} {previous : Branch} {p q : Progress} {i : Instruction}
    (reaches : Reaches e id settings is previous p i q) {P : Instruction → Prop}
    (all : ∀ j ∈ is, P j)
    (blocks : ∀ code line body, P (.script code line body) → ∀ j ∈ body, P j) : P i := by
  induction reaches with
  | here => exact all _ (List.mem_cons_self ..)
  | inside _ _ ih => exact ih (blocks _ _ _ (all _ (List.mem_cons_self ..)))
  | later _ _ ih => exact ih fun j member => all j (List.mem_cons_of_mem _ member)

/-- Instructions behind others start with what those have come to, unless they have failed. -/
theorem steps_append (is others : List Instruction) (previous : Branch) (p : Progress) :
    ∃ branch, steps e id settings (is ++ others) previous p =
      match steps e id settings is previous p with
      | (.ok _, q) => steps e id settings others branch q
      | (.error failure, q) => (.error failure, q) := by
  induction is generalizing previous p with
  | nil => exact ⟨previous, by rw [List.nil_append, steps]⟩
  | cons i rest ih =>
      rw [List.cons_append, steps, steps]
      generalize step e id settings i previous p = ran
      obtain ⟨outcome, q⟩ := ran
      cases outcome with
      | error failure => exact ⟨previous, rfl⟩
      | ok left => exact ih left q

section

variable {I : Buffer → Prop}

mutual

theorem step_keeps (keeps : ∀ i c b, I b → I (write e settings c i b).2) (i : Instruction)
    (previous : Branch) (p : Progress) (start : I p.buffer) :
    I (step e id settings i previous p).2.buffer := by
  match i with
  | .script code line body =>
      rw [step_script]
      exact Script.run_keeps (fun c b => steps_keeps keeps body .idle ⟨c, b⟩) _ start
  | .text .. | .interpolated .. | .output .. | .element .. | .openTag .. | .closeTag ..
  | .filter .. =>
      rw [step_eq_write (by intro _ _ _ same; cases same)]
      exact keeps _ _ _ start

/-- What holds of an output whatever is written to it holds to the end of a run. -/
theorem steps_keeps (keeps : ∀ i c b, I b → I (write e settings c i b).2) (is : List Instruction)
    (previous : Branch) (p : Progress) (start : I p.buffer) :
    I (steps e id settings is previous p).2.buffer := by
  match is with
  | [] =>
      rw [steps]
      exact start
  | i :: rest =>
      have first := step_keeps keeps i previous p start
      rw [steps]
      generalize step e id settings i previous p = x at first
      obtain ⟨outcome, q⟩ := x
      cases outcome with
      | error failure => exact first
      | ok branch => exact steps_keeps keeps rest branch q first

end

end

/-- Whether what an instruction writes stays related if `f` is made of it. -/
def Redrawable (f : Instruction → Instruction) (R : Buffer → Buffer → Prop) (i : Instruction)
    (p : Progress) : Prop :=
  i.Writes → ∀ b, R p.buffer b →
    (write e settings p.context (f i) b).1 = (write e settings p.context i p.buffer).1 ∧
      R (write e settings p.context i p.buffer).2 (write e settings p.context (f i) b).2

variable {f : Instruction → Instruction} {R : Buffer → Buffer → Prop}

/-- What is written of a text, or its failure, keeps outputs related if writing the text does. -/
theorem writeWith_related {b b' : Buffer} (start : R b b') (text : Except Error (List Char))
    {write write' : List Char → Buffer} (writes : ∀ cs, text = .ok cs → R (write cs) (write' cs)) :
    (writeWith b' text write').1 = (writeWith b text write).1 ∧
      R (writeWith b text write).2 (writeWith b' text write').2 := by
  cases text with
  | error e => exact ⟨rfl, start⟩
  | ok text => exact ⟨rfl, writes text rfl⟩

structure Parallel {α : Type} (R : Buffer → Buffer → Prop) (x y : Except Error α × Progress) :
    Prop where
  outcome : y.1 = x.1
  context : y.2.context = x.2.context
  buffer : R x.2.buffer y.2.buffer

theorem step_redrawn_of_writes (redraws : Redraws f) {i : Instruction} (writes : i.Writes)
    (previous : Branch) {p : Progress} {b : Buffer} (start : R p.buffer b)
    (here : Redrawable e settings f R i p) :
    Parallel R (step e id settings i previous p)
      (step e id settings (i.redrawn f) previous ⟨p.context, b⟩) := by
  obtain ⟨outcome, related⟩ := here writes b start
  rw [writes.redrawn, step_eq_write writes, step_eq_write (redraws.writes i writes), outcome]
  exact ⟨rfl, rfl, related⟩

mutual

theorem step_redrawn (redraws : Redraws f) (i : Instruction) (previous : Branch) (p : Progress)
    (b : Buffer) (start : R p.buffer b)
    (each : ∀ j q, Reaches e id settings [i] previous p j q → Redrawable e settings f R j q) :
    Parallel R (step e id settings i previous p)
      (step e id settings (i.redrawn f) previous ⟨p.context, b⟩) := by
  match i with
  | .script code line body =>
      have blocks : ∀ c a, Script.Calls (block e id settings body)
          (e.execute code p.context previous !body.isEmpty) p.buffer c a → ∀ b', R a b' →
          (block e id settings (redrawnAll f body) c b').1 = (block e id settings body c a).1 ∧
          (block e id settings (redrawnAll f body) c b').2.1 =
            (block e id settings body c a).2.1 ∧
          R (block e id settings body c a).2.2
            (block e id settings (redrawnAll f body) c b').2.2 := by
        intro c a calls b' related
        have ran := steps_redrawn redraws body .idle ⟨c, a⟩ b' related fun j q reaches =>
          each j q (.inside calls reaches)
        exact ⟨ran.outcome, ran.context, ran.buffer⟩
      have ran := Script.run_related _ start blocks
      rw [redrawn, step_script, step_script, isEmpty_redrawnAll]
      exact ⟨ran.1, ran.2.1, ran.2.2⟩
  | .text .. | .interpolated .. | .output .. | .element .. | .openTag .. | .closeTag ..
  | .filter .. =>
      refine step_redrawn_of_writes e id settings redraws ?_ previous start (each _ _ .here)
      intro _ _ _ same
      cases same

/-- A run of redrawn instructions keeps to the run of those they are made of. -/
theorem steps_redrawn (redraws : Redraws f) (is : List Instruction) (previous : Branch)
    (p : Progress) (b : Buffer) (start : R p.buffer b)
    (each : ∀ j q, Reaches e id settings is previous p j q → Redrawable e settings f R j q) :
    Parallel R (steps e id settings is previous p)
      (steps e id settings (redrawnAll f is) previous ⟨p.context, b⟩) := by
  match is with
  | [] =>
      rw [redrawnAll, steps, steps]
      exact ⟨rfl, rfl, start⟩
  | i :: rest =>
      have first := step_redrawn redraws i previous p b start fun j q reaches => each j q <| by
        cases reaches with
        | here => exact .here
        | inside calls reaches => exact .inside calls reaches
        | later _ reaches => cases reaches
      have later : ∀ branch q, step e id settings i previous p = (.ok branch, q) → ∀ j r,
          Reaches e id settings rest branch q j r → Redrawable e settings f R j r :=
        fun branch q ran j r reaches => each j r (.later ran reaches)
      rw [redrawnAll, steps, steps]
      generalize step e id settings i previous p = x at first later
      generalize step e id settings (i.redrawn f) previous ⟨p.context, b⟩ = y at first
      obtain ⟨outcome, q⟩ := x
      obtain ⟨outcome', q', b'⟩ := y
      obtain ⟨same, context, related⟩ := first
      cases same
      cases context
      cases outcome with
      | error failure =>
          have place : locate id (i.redrawn f) failure = locate id i failure := by
            rw [locate, locate, redraws.line_redrawn]
          exact ⟨congrArg Except.error place, rfl, related⟩
      | ok branch => exact steps_redrawn redraws rest branch q b' related (later branch q rfl)

end

end

end Render

end Haml
