import Haml.Partial
/-! Scripts that pass failures on: where a block fails, the script does nothing more and fails with
the same failure. -/

namespace Haml

namespace Script

/-- Whether a script whose block fails ends with that failure. -/
inductive Passes : Script → Prop
  | done {outcome : Except Error Branch} {c : Context} : Passes (.done outcome c)
  | block {c : Context} {resume : Except Error Unit → Context → Script} :
      (∀ failure d, ∃ last, resume (.error failure) d = .done (.error failure) last) →
      (∀ d, (resume (.ok ()) d).Passes) → Passes (.block c resume)

theorem Passes.once (branch : Branch) (hasBlock : Bool) (c : Context) :
    (Script.once branch hasBlock c).Passes := by
  cases hasBlock with
  | false => exact .done
  | true =>
      refine .block ?_ ?_
      · intro failure d
        exact ⟨d, rfl⟩
      · intro d
        exact .done

/-- What each successful run of the block keeps holds after a script that has succeeded. -/
theorem Passes.run_ok {σ : Type} {body : Context → σ → Except Error Unit × Context × σ}
    {s : Script} (passes : s.Passes) {I : σ → Prop}
    (keeps : ∀ c a, I a → (body c a).1 = .ok () → I (body c a).2.2) {a : σ} (start : I a)
    {branch : Branch} (success : (s.run body a).1 = .ok branch) : I (s.run body a).2.2 := by
  induction passes generalizing a with
  | done => exact start
  | @block c resume fails _ ih =>
      have kept := keeps c a start
      rw [Script.run] at success ⊢
      generalize body c a = ran at success kept ⊢
      obtain ⟨outcome, d, b⟩ := ran
      cases outcome with
      | ok done => exact ih d (kept rfl) success
      | error failure =>
          obtain ⟨last, ends⟩ := fails failure d
          simp only [ends, Script.run] at success
          cases success

end Script

/-- Whether all scripts of an evaluator pass on the failures of their blocks. -/
def Evaluator.PassesFailures (e : Evaluator) : Prop :=
  ∀ code c previous hasBlock, (e.execute code c previous hasBlock).Passes

namespace Evaluator.Expressions

variable {value? : String → Context → Except Error Value} {c : Context}

theorem conditional_passes (condition : String) (wanted hasBlock : Bool) :
    (conditional value? condition wanted c hasBlock).Passes := by
  unfold conditional
  split
  · exact .done
  · split
    · exact .once .taken hasBlock c
    · exact .done

theorem eachItem_passes (collection : Value) (targets : List String) (length index : Nat)
    (items : List Value) : (eachItem collection targets length index items c).Passes := by
  induction items generalizing index c with
  | nil => exact .done
  | cons item rest ih =>
      unfold eachItem
      split
      · exact .done
      · refine .block ?_ ?_
        · intro failure d
          exact ⟨d.popScope, rfl⟩
        · intro d
          exact ih (index + 1)

theorem each_passes (targets : List String) (items : String) (hasBlock : Bool) :
    (each value? targets items c hasBlock).Passes := by
  unfold each
  split
  · exact .done
  · split
    · exact .done
    · exact .done
    · split
      · exact eachItem_passes ..
      · exact .done

theorem run_passes (statement : Statement) (previous : Branch) (hasBlock : Bool) :
    (run value? statement c previous hasBlock).Passes := by
  cases statement with
  | ifTrue condition => exact conditional_passes condition true hasBlock
  | ifFalse condition => exact conditional_passes condition false hasBlock
  | elseIf condition =>
      cases previous with
      | skipped => exact conditional_passes condition true hasBlock
      | taken | idle => exact .done
  | otherwise =>
      cases previous with
      | skipped => exact .once .idle hasBlock c
      | taken | idle => exact .done
  | each targets items => exact each_passes targets items hasBlock
  | assign name code =>
      simp only [run]
      split <;> exact .done
  | blockEnd => exact .done
  | expression code =>
      simp only [run]
      split
      · exact .done
      · exact .once .idle hasBlock c

theorem passesFailures (extra : List Function) (render : Render) :
    (evaluator extra render).PassesFailures := by
  intro code c previous hasBlock
  simp only [evaluator]
  exact run_passes (Statement.read code) previous hasBlock

end Evaluator.Expressions

theorem Evaluator.Echo.passesFailures : Evaluator.Echo.evaluator.PassesFailures := by
  intro code c previous hasBlock
  cases hasBlock with
  | false => exact .done
  | true =>
      refine .block ?_ ?_
      · intro failure d
        exact ⟨d, rfl⟩
      · intro d
        exact .once .idle true d

theorem Dialect.passesFailures (d : Dialect) (nested : Nat) :
    (d.evaluatorWithin nested).PassesFailures := by
  cases d with
  | echo =>
      simp only [Dialect.evaluatorWithin]
      exact Evaluator.Echo.passesFailures
  | expressions extra =>
      cases nested with
      | zero =>
          simp only [Dialect.evaluatorWithin]
          exact Evaluator.Expressions.passesFailures extra _
      | succ nested =>
          simp only [Dialect.evaluatorWithin]
          exact Evaluator.Expressions.passesFailures extra _

end Haml
