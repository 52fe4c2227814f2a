import Haml.LiveContext
import Haml.Proofs.Ordered
/-! Kept bindings: what a context in use gives out again is what would be built from its scopes,
partials and depth at that moment, whatever calls have been made on it and on its clones. -/

namespace Haml

namespace Context

variable {c : Context}

def InOrder (c : Context) : Prop := ∀ scope ∈ c.scopes, scope.Ordered

theorem inOrder_bind (ordered : c.InOrder) (name : String) (v : Value) : (c.bind name v).InOrder := by
  obtain ⟨here, others⟩ := List.forall_mem_cons.mp ordered
  exact List.forall_mem_cons.mpr ⟨here.insert name v, others⟩

theorem inOrder_assign (ordered : c.InOrder) (name : String) (v : Value) :
    (c.assign name v).InOrder := by
  unfold InOrder
  rw [scopes_assign]
  split
  · exact ordered_assignIn ordered name v
  · exact inOrder_bind ordered name v

theorem inOrder_pushScope (ordered : c.InOrder) : c.pushScope.InOrder :=
  List.forall_mem_cons.mpr ⟨Dict.ordered_nil, ordered⟩

theorem inOrder_popScope (ordered : c.InOrder) : c.popScope.InOrder := by
  have others := (List.forall_mem_cons.mp ordered).2
  unfold popScope
  split
  · exact ordered
  · next scope rest outer =>
      rw [outer] at others
      exact others

theorem find?_visible (ordered : c.InOrder) (name : String) : c.visible.find? name = c.lookup name :=
  find?_flatten ordered name

/-- Whether a context gives `render` to expressions: it knows a partial, and the innermost variable
of that name, if there is one, has no value. -/
def GivesRender (c : Context) : Prop :=
  c.partials ≠ [] ∧ ∀ v ∈ c.lookup "render", v = .undefined

theorem defines_eq_false_iff {scope : Scope} {name : String} :
    defines scope name = false ↔ ∀ v ∈ scope.find? name, v = .undefined := by
  unfold defines
  cases scope.find? name with
  | none => simp
  | some v => cases v <;> simp

theorem bindings_of_givesRender (ordered : c.InOrder) (gives : c.GivesRender) :
    c.bindings = c.visible.insert "render" (.renderer c.renderer) := by
  obtain ⟨known, free⟩ := gives
  rw [← find?_visible ordered, ← defines_eq_false_iff] at free
  simp [bindings, known, free]

theorem bindings_of_not_givesRender (ordered : c.InOrder) (without : ¬ c.GivesRender) :
    c.bindings = c.visible := by
  unfold bindings
  split
  · rfl
  · next shown =>
      simp only [Bool.or_eq_true, not_or, Bool.not_eq_true, List.isEmpty_eq_false_iff] at shown
      obtain ⟨known, free⟩ := shown
      rw [defines_eq_false_iff, find?_visible ordered] at free
      exact absurd ⟨known, free⟩ without

/-- The bindings are the innermost variables, with `render` where the context gives it. -/
theorem find?_bindings (ordered : c.InOrder) (name : String) :
    (¬ (name = "render" ∧ c.GivesRender) → c.bindings.find? name = c.lookup name) ∧
    (c.GivesRender → c.bindings.find? "render" = some (.renderer c.renderer)) := by
  refine ⟨fun other => ?_, fun gives => ?_⟩
  · by_cases gives : c.GivesRender
    · have free : "render" ≠ name := fun same => other ⟨same.symm, gives⟩
      rw [bindings_of_givesRender ordered gives, Dict.find?_insert_of_ne free,
        find?_visible ordered]
    · rw [bindings_of_not_givesRender ordered gives, find?_visible ordered]
  · rw [bindings_of_givesRender ordered gives, Dict.find?_insert_self]

end Context

inductive ContextCall where
  | bind (name : String) (value : Value)
  | assign (name : String) (value : Value)
  | pushScope
  | popScope
  | addPartial (name : String) (t : Template)
  | bindings

/-- What happens to contexts in use: a call on one of them, or a clone of one, which joins them. -/
inductive ContextEvent where
  | on (place : Nat) (call : ContextCall)
  | clone (place : Nat)

namespace ContextEvent

def happen {α : Type} (step : ContextCall → α → α) (contexts : List α) : ContextEvent → List α
  | on place call => contexts.modify place (step call)
  | clone place => contexts ++ contexts[place]?.toList

def runAll {α : Type} (step : ContextCall → α → α) (events : List ContextEvent)
    (contexts : List α) : List α :=
  events.foldl (happen step) contexts

end ContextEvent

def Context.after : ContextCall → Context → Context
  | .bind name value, c => c.bind name value
  | .assign name value, c => c.assign name value
  | .pushScope, c => c.pushScope
  | .popScope, c => c.popScope
  | .addPartial name t, c => c.addPartial name t
  | .bindings, c => c

def LiveContext.after : ContextCall → LiveContext → LiveContext
  | .bind name value, c => c.bind name value
  | .assign name value, c => c.assign name value
  | .pushScope, c => c.pushScope
  | .popScope, c => c.popScope
  | .addPartial name t, c => c.addPartial name t
  | .bindings, c => c.bindings.2

theorem Context.inOrder_after {c : Context} (ordered : c.InOrder) (call : ContextCall) :
    (c.after call).InOrder := by
  cases call with
  | bind name value => exact inOrder_bind ordered name value
  | assign name value => exact inOrder_assign ordered name value
  | pushScope => exact inOrder_pushScope ordered
  | popScope => exact inOrder_popScope ordered
  | addPartial name t => exact ordered
  | bindings => exact ordered

namespace ContextEvent

variable {α β : Type} {step : ContextCall → α → α} {other : ContextCall → β → β}

theorem forall_happen {P : α → Prop} (keeps : ∀ call a, P a → P (step call a))
    {contexts : List α} (start : ∀ a ∈ contexts, P a) (event : ContextEvent) :
    ∀ a ∈ happen step contexts event, P a := by
  intro a member
  cases event with
  | on place call =>
      obtain ⟨i, found⟩ := List.mem_iff_getElem?.mp member
      rw [happen, List.getElem?_modify] at found
      obtain ⟨b, before, rfl⟩ := Option.map_eq_some_iff.mp found
      have kept := start b (List.mem_of_getElem? before)
      split
      · exact keeps call b kept
      · exact kept
  | clone place =>
      rcases List.mem_append.mp member with before | cloned
      · exact start a before
      · exact start a (List.mem_of_getElem? (Option.mem_toList.mp cloned))

theorem forall_runAll {P : α → Prop} (keeps : ∀ call a, P a → P (step call a))
    (events : List ContextEvent) {contexts : List α} (start : ∀ a ∈ contexts, P a) :
    ∀ a ∈ runAll step events contexts, P a := by
  induction events generalizing contexts with
  | nil => exact start
  | cons event events ih => exact ih (forall_happen keeps start event)

theorem map_happen {view : α → β} (same : ∀ call a, view (step call a) = other call (view a))
    (contexts : List α) (event : ContextEvent) :
    (happen step contexts event).map view = happen other (contexts.map view) event := by
  cases event with
  | on place call =>
      refine List.ext_getElem? fun i => ?_
      simp only [happen, List.getElem?_map, List.getElem?_modify]
      cases contexts[i]? with
      | none => rfl
      | some a =>
          by_cases here : place = i <;> simp [here, same]
  | clone place =>
      simp only [happen, List.map_append, List.getElem?_map]
      cases contexts[place]? <;> rfl

/-- Where a view of contexts follows each call, it follows events. -/
theorem map_runAll {view : α → β} (same : ∀ call a, view (step call a) = other call (view a))
    (events : List ContextEvent) (contexts : List α) :
    (runAll step events contexts).map view = runAll other events (contexts.map view) := by
  induction events generalizing contexts with
  | nil => rfl
  | cons event events ih =>
      calc (runAll step events (happen step contexts event)).map view
          = runAll other events ((happen step contexts event).map view) := ih _
        _ = runAll other events (happen other (contexts.map view) event) := by
          rw [map_happen same]

end ContextEvent

namespace LiveContext

/-- A live context is assigned to as a context is, whichever scope has the name. -/
theorem toContext_assign (c : LiveContext) (name : String) (value : Value) :
    (c.assign name value).toContext = c.toContext.assign name value := by
  unfold assign Context.assign
  cases c.inner.contains name with
  | true => rfl
  | false =>
      cases c.outer.any fun scope => scope.contains name with
      | true => rfl
      | false => rfl

theorem toContext_popScope (c : LiveContext) : c.popScope.toContext = c.toContext.popScope := by
  unfold popScope Context.popScope
  cases c.outer with
  | nil => rfl
  | cons scope rest => rfl

theorem toContext_bindings (c : LiveContext) : c.bindings.2.toContext = c.toContext := by
  unfold bindings
  cases c.kept with
  | some scope => rfl
  | none => rfl

theorem toContext_after (call : ContextCall) (c : LiveContext) :
    (after call c).toContext = Context.after call c.toContext := by
  cases call with
  | bind name value => rfl
  | assign name value => exact toContext_assign c name value
  | pushScope => rfl
  | popScope => exact toContext_popScope c
  | addPartial name t => rfl
  | bindings => exact toContext_bindings c

/-- Whether bindings that are kept are those that would be built now. -/
def Current (c : LiveContext) : Prop := ∀ scope ∈ c.kept, scope = c.toContext.bindings

variable {c : LiveContext}

theorem Current.bindings_fst (current : c.Current) : c.bindings.1 = c.toContext.bindings := by
  unfold bindings
  cases kept : c.kept with
  | some scope => exact current scope kept
  | none => rfl

theorem current_of_kept_eq_none (absent : c.kept = none) : c.Current := by
  intro scope member
  rw [absent] at member
  cases member

theorem Current.assign (c : LiveContext) (name : String) (value : Value) :
    (c.assign name value).Current := by
  refine current_of_kept_eq_none ?_
  unfold LiveContext.assign
  split
  · rfl
  · split
    · rfl
    · rfl

theorem Current.popScope (current : c.Current) : c.popScope.Current := by
  unfold LiveContext.popScope
  cases c.outer with
  -- Nothing is dropped, and what is kept stays.
  | nil => exact current
  | cons scope rest => exact current_of_kept_eq_none rfl

theorem Current.bindings_snd (current : c.Current) : c.bindings.2.Current := by
  unfold bindings
  cases kept : c.kept with
  | some scope => exact current
  | none =>
      intro scope built
      cases built
      rfl

/-- A call leaves no bindings that it may have put out of date. -/
theorem Current.after (call : ContextCall) (c : LiveContext) (current : c.Current) :
    (after call c).Current := by
  cases call with
  | bind name value => exact current_of_kept_eq_none rfl
  | assign name value => exact .assign c name value
  | pushScope => exact current_of_kept_eq_none rfl
  | popScope => exact current.popScope
  | addPartial name t => exact current_of_kept_eq_none rfl
  | bindings => exact current.bindings_snd

/-- Bindings are never out of date. After any calls on contexts in use and on clones of them, each
gives out the bindings that a context would which keeps none: for each name the innermost variable,
and `render` exactly where a partial is known and no variable of that name has a value. -/
theorem bindings_current (dialect : Dialect) (partials : Dict Template) (depth : Nat)
    (events : List ContextEvent) :
    (ContextEvent.runAll after events [new dialect partials depth]).map (fun c => c.bindings.1) =
      (ContextEvent.runAll Context.after events
        [(new dialect partials depth).toContext]).map Context.bindings ∧
    ∀ c ∈ ContextEvent.runAll after events [new dialect partials depth],
      c.bindings.1 = c.toContext.bindings ∧
      (∀ name, ¬ (name = "render" ∧ c.GivesRender) → c.bindings.1.find? name = c.lookup name) ∧
      (c.GivesRender → c.bindings.1.find? "render" =
        some (.renderer ⟨c.dialect, c.depth, c.partials, c.visible⟩)) := by
  have current : ∀ c ∈ ContextEvent.runAll after events [new dialect partials depth], c.Current :=
    ContextEvent.forall_runAll Current.after events
      (List.forall_mem_singleton.mpr (current_of_kept_eq_none rfl))
  have ordered : ∀ c ∈ ContextEvent.runAll after events [new dialect partials depth],
      c.toContext.InOrder := by
    refine ContextEvent.forall_runAll (fun call c ordered => ?_) events
      (List.forall_mem_singleton.mpr (List.forall_mem_singleton.mpr Dict.ordered_nil))
    rw [toContext_after]
    exact Context.inOrder_after ordered call
  refine ⟨?_, fun c member => ?_⟩
  · have views := ContextEvent.map_runAll toContext_after events
      [new dialect partials depth]
    calc (ContextEvent.runAll after events [new dialect partials depth]).map (fun c => c.bindings.1)
        = (ContextEvent.runAll after events [new dialect partials depth]).map
            (fun c => c.toContext.bindings) :=
          List.map_congr_left fun c member => (current c member).bindings_fst
      _ = ((ContextEvent.runAll after events [new dialect partials depth]).map
            toContext).map Context.bindings := by rw [List.map_map]; rfl
      _ = _ := by rw [views]; rfl
  · have given := (current c member).bindings_fst
    rw [given]
    refine ⟨rfl, fun name => ?_, ?_⟩
    · exact (Context.find?_bindings (ordered c member) name).1
    · exact (Context.find?_bindings (ordered c member) "render").2

namespace Cloning

def events : List ContextEvent :=
  [.on 0 (.bind "x" (.int 1)), .on 0 .bindings, .clone 0, .on 1 (.bind "x" (.int 2))]

def start : LiveContext := new (.expressions []) [] 0

def original : LiveContext := (start.bind "x" (.int 1)).bindings.2

def changed : LiveContext := original.bind "x" (.int 2)

end Cloning

open Cloning in
theorem bindings_current_cloned :
    ContextEvent.runAll after events [start] = [original, changed] ∧
      original.kept ≠ none ∧ original.bindings.1.find? "x" = some (.int 1) ∧
      changed.bindings.1.find? "x" = some (.int 2) := by
  have ran : ContextEvent.runAll after events [start] = [original, changed] := rfl
  have given := (bindings_current (.expressions []) [] 0 events).2
  have first : original ∈ ContextEvent.runAll after events [start] := by simp [ran]
  have second : changed ∈ ContextEvent.runAll after events [start] := by simp [ran]
  refine ⟨ran, nofun, ?_, ?_⟩
  · rw [(given original first).2.1 "x" (by simp)]
    rfl
  · rw [(given changed second).2.1 "x" (by simp)]
    rfl

/-- A variable `render` without a value does not hide the function of that name, though it is
found. -/
theorem render_over_undefined :
    ¬ ∀ events, ∀ c ∈ ContextEvent.runAll after events [new (.expressions []) [] 0], ∀ name,
      c.bindings.1.find? name = (c.lookup name).or
        (if name = "render" ∧ c.partials.isEmpty = false then some (.renderer c.renderer)
          else none) := by
  intro claimed
  have same := claimed
    [.on 0 (.addPartial "p" ⟨"p", [], ⟨true, '\'', false⟩⟩), .on 0 (.assign "render" .undefined)] _
    (List.mem_singleton.mpr rfl) "render"
  cases same

end LiveContext

end Haml
