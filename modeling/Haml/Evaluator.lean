import Haml.Context
/-! Evaluators: what gives the code in templates its meaning. -/

namespace Haml

/-- How far a chain of conditions has come; the next script of the same block goes on from it. -/
inductive Branch where
  /-- No chain is open. -/
  | idle
  /-- A block of the chain has run. -/
  | taken
  /-- No block of the chain has run yet, or a loop had nothing to go through. -/
  | skipped
  deriving DecidableEq, Repr

/-- The run of a script line as it calls for its block: it is over, or the block is to run once more
with a context, and its outcome decides how the script goes on. -/
inductive Script where
  | done (outcome : Except Error Branch) (context : Context)
  | block (context : Context) (resume : Except Error Unit → Context → Script)

namespace Script

/-- Runs a script to its end. The block may change a state of its own. -/
def run {σ : Type} (body : Context → σ → Except Error Unit × Context × σ) :
    Script → σ → Except Error Branch × Context × σ
  | done outcome context, state => (outcome, context, state)
  | block context resume, state =>
      let (outcome, context, state) := body context state
      run body (resume outcome context) state

/-- The script that runs its block once, if there is one, and then ends with `branch`. -/
def once (branch : Branch) (hasBlock : Bool) (context : Context) : Script :=
  if hasBlock then block context fun outcome context => done (outcome.map fun _ => branch) context
  else done (.ok branch) context

end Script

structure Evaluator where
  /-- The value of an expression. -/
  evaluate : String → Context → Except Error Value
  /-- Why an expression would be refused whatever its variables are. -/
  check : String → Except String Unit
  /-- Runs a script, given the branch before it and whether lines are nested under it. -/
  execute : String → Context → Branch → Bool → Script

end Haml
