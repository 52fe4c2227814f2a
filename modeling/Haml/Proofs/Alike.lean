import Haml.Evaluator.Expressions
import Haml.Proofs.Outcome
import Mathlib.Data.List.Forall2
/-! Values, contexts and evaluators that are alike: of the same shape throughout, and different only
in the characters of texts. -/

namespace Haml

open List (Forall₂)

namespace Value

def SameOrder (ks ls : List Value) : Prop :=
  ∀ p ∈ ks.zip ls, ∀ q ∈ ks.zip ls, compare p.1 q.1 = compare p.2 q.2

theorem compare_ofString_self (s : String) : compare (.ofString s) (.ofString s) = .eq := by
  unfold ofString compare
  simp only [kind, bne_self_eq_false, Bool.false_eq_true, if_false, coerce]
  exact Std.ReflOrd.compare_self

theorem sameOrder_singleton (s t : String) : SameOrder [.ofString s] [.ofString t] := by
  intro p first q second
  obtain rfl := List.mem_singleton.mp first
  obtain rfl := List.mem_singleton.mp second
  simp only [compare_ofString_self]

inductive Alike : Value → Value → Prop
  | same (v : Value) : Alike v v
  | text {s t : String} {safe : Bool} :
      s.length = t.length → Alike (.text s safe) (.text t safe)
  | list {xs ys : List Value} : Forall₂ Alike xs ys → Alike (.list xs) (.list ys)
  | iter {xs ys : List Value} {sized : Bool} :
      Forall₂ Alike xs ys → Alike (.iter xs sized) (.iter ys sized)
  | map {xs ys : List (Value × Value)} :
      Forall₂ Alike (xs.map Prod.fst) (ys.map Prod.fst) →
      Forall₂ Alike (xs.map Prod.snd) (ys.map Prod.snd) →
      SameOrder (xs.map Prod.fst) (ys.map Prod.fst) → Alike (.map xs) (.map ys)
  | renderer {r s : Renderer Value} :
      r.dialect = s.dialect → r.depth = s.depth → r.partials = s.partials →
      r.bindings.map Prod.fst = s.bindings.map Prod.fst →
      Forall₂ Alike (r.bindings.map Prod.snd) (s.bindings.map Prod.snd) →
      Alike (.renderer r) (.renderer s)

theorem forall₂_alike_same (vs : List Value) : Forall₂ Alike vs vs :=
  List.forall₂_same.mpr fun v _ => .same v

namespace Alike

variable {v w : Value}

theorem kind_eq (alike : v.Alike w) : v.kind = w.kind := by
  cases alike <;> rfl

theorem isSafe_eq (alike : v.Alike w) : v.isSafe = w.isSafe := by
  cases alike <;> rfl

theorem isEmpty_eq {xs ys : List Value} (alike : Forall₂ Alike xs ys) :
    xs.isEmpty = ys.isEmpty := by
  cases alike <;> rfl

theorem isTrue_eq (alike : v.Alike w) : v.isTrue = w.isTrue := by
  cases alike with
  | same => rfl
  | @text s t safe length =>
      have empty : s.isEmpty = t.isEmpty := by
        rw [Bool.eq_iff_iff, String.isEmpty_iff, String.isEmpty_iff, ← String.length_eq_zero_iff,
          ← String.length_eq_zero_iff, length]
      simp only [isTrue, empty]
  | list items => simp only [isTrue, isEmpty_eq items]
  | iter items => simp only [isTrue, isEmpty_eq items]
  | @map xs ys keys values order =>
      have empty := isEmpty_eq keys
      simp only [List.isEmpty_map] at empty
      simp only [isTrue, empty]
  | renderer => rfl

theorem forall₂_ofChar {cs ds : List Char} (length : cs.length = ds.length) :
    Forall₂ Alike (cs.map ofChar) (ds.map ofChar) := by
  induction cs generalizing ds with
  | nil =>
      cases ds with
      | nil => exact .nil
      | cons d ds => cases length
  | cons c cs ih =>
      cases ds with
      | nil => cases length
      | cons d ds =>
          have one : (String.singleton c).length = (String.singleton d).length := by
            rw [String.length_singleton, String.length_singleton]
          exact .cons (.text one) (ih (Nat.succ.inj length))

theorem compare_int (alike : v.Alike w) (n : Int) : compare v (.int n) = compare w (.int n) := by
  cases alike with
  | same => rfl
  | text => rfl
  | list => rfl
  | iter => rfl
  | map => rfl
  | renderer => rfl

theorem atKey? {key key' : Value} {xs ys : List (Value × Value)}
    (keys : Forall₂ (fun k l => compare k key = compare l key') (xs.map Prod.fst)
      (ys.map Prod.fst))
    (values : Forall₂ Alike (xs.map Prod.snd) (ys.map Prod.snd)) :
    Option.Rel Alike (Value.atKey? key xs) (Value.atKey? key' ys) := by
  induction xs generalizing ys with
  | nil =>
      cases ys with
      | nil => exact .none
      | cons y ys => cases keys
  | cons x xs ih =>
      cases ys with
      | nil => cases keys
      | cons y ys =>
          obtain ⟨k, a⟩ := x
          obtain ⟨l, b⟩ := y
          cases keys with
          | cons key keys =>
              cases values with
              | cons value values =>
                  simp only [Value.atKey?, key]
                  split
                  · exact .some value
                  · exact ih keys values

theorem getElem? {xs ys : List Value} (alike : Forall₂ Alike xs ys) (i : Nat) :
    Option.Rel Alike xs[i]? ys[i]? := by
  induction alike generalizing i with
  | nil => exact .none
  | cons first rest ih =>
      cases i with
      | zero => exact .some first
      | succ i => exact ih i

theorem rel_same (v? : Option Value) : Option.Rel Alike v? v? := by
  cases v? with
  | some v => exact .some (.same v)
  | none => exact .none

theorem item?_int (alike : v.Alike w) (n : Int) :
    Option.Rel Alike (item? v (.int n)) (item? w (.int n)) := by
  cases alike with
  | same => exact rel_same _
  | @text s t safe length =>
      simp only [item?, length]
      cases position? (some t.length) (.int n) with
      | none => exact .none
      | some i =>
          have chars := getElem? (forall₂_ofChar length) i
          simpa only [List.getElem?_map, Option.bind_some] using chars
  | list items =>
      simp only [item?, items.length_eq]
      cases position? _ _ with
      | none => exact .none
      | some i => exact getElem? items i
  | iter items =>
      simp only [item?, items.length_eq]
      cases position? _ _ with
      | none => exact .none
      | some i => exact getElem? items i
  | map keys values => exact atKey? (keys.imp fun k l alike => alike.compare_int n) values
  | renderer => exact .none

theorem getItem {key key' : Value} (alike : v.Alike w)
    (items : Option.Rel Alike (item? v key) (item? w key')) :
    Together Alike (v.getItem key) (w.getItem key') := by
  unfold Value.getItem
  generalize item? v key = a at items
  generalize item? w key' = b at items
  cases items with
  | some part => exact .ok part
  | none =>
      cases alike with
      | same =>
          cases v with
          | undefined => exact .error _ _
          | _ => exact .ok (.same _)
      | _ => exact .ok (.same _)

theorem getItem_int (alike : v.Alike w) (n : Int) :
    Together Alike (v.getItem (.int n)) (w.getItem (.int n)) :=
  alike.getItem (alike.item?_int n)

end Alike

end Value

def Scope.Alike (d e : List (String × Value)) : Prop :=
  Forall₂ (fun a b => a.1 = b.1 ∧ a.2.Alike b.2) d e

namespace Scope.Alike

variable {d e : Scope}

theorem same (d : Scope) : Scope.Alike d d :=
  List.forall₂_same.mpr fun _ _ => ⟨rfl, .same _⟩

theorem contains_eq (alike : Scope.Alike d e) (name : String) :
    Dict.contains d name = Dict.contains e name := by
  induction alike with
  | nil => rfl
  | @cons a b d e entry rest ih =>
      obtain ⟨n, v⟩ := a
      obtain ⟨m, w⟩ := b
      obtain ⟨rfl, value⟩ := entry
      simp only [Dict.contains, Dict.find?] at ih ⊢
      split
      · rfl
      · exact ih

theorem insert {v w : Value} (alike : Scope.Alike d e) (name : String) (value : v.Alike w) :
    Scope.Alike (Dict.insert d name v) (Dict.insert e name w) := by
  induction alike with
  | nil => exact .cons ⟨rfl, value⟩ .nil
  | @cons a b d e entry rest ih =>
      obtain ⟨n, v'⟩ := a
      obtain ⟨m, w'⟩ := b
      obtain ⟨rfl, value'⟩ := entry
      simp only [Dict.insert]
      split
      · exact .cons ⟨rfl, value⟩ rest
      · split
        · exact .cons ⟨rfl, value⟩ (.cons ⟨rfl, value'⟩ rest)
        · exact .cons ⟨rfl, value'⟩ ih

end Scope.Alike

/-- Contexts that differ only in the values of variables, which are alike. -/
structure Context.Alike (c d : Context) : Prop where
  dialect : c.dialect = d.dialect
  inner : Scope.Alike c.inner d.inner
  outer : Forall₂ Scope.Alike c.outer d.outer
  partials : c.partials = d.partials
  methods : c.methods = d.methods
  depth : c.depth = d.depth

namespace Context.Alike

variable {c d : Context} {v w : Value}

theorem same (c : Context) : c.Alike c where
  dialect := rfl
  inner := .same c.inner
  outer := List.forall₂_same.mpr fun scope _ => .same scope
  partials := rfl
  methods := rfl
  depth := rfl

theorem bind (alike : c.Alike d) (name : String) (value : v.Alike w) :
    (c.bind name v).Alike (d.bind name w) :=
  { alike with inner := alike.inner.insert name value }

theorem bindAll {entries others : List (String × Value)} (alike : c.Alike d)
    (bound : Scope.Alike entries others) : (c.bindAll entries).Alike (d.bindAll others) := by
  induction bound generalizing c d with
  | nil => exact alike
  | @cons a b entries others entry rest ih =>
      obtain ⟨n, v⟩ := a
      obtain ⟨m, w⟩ := b
      obtain ⟨rfl, value⟩ := entry
      exact ih (alike.bind n value)

theorem any_contains_eq {scopes others : List Scope} (alike : Forall₂ Scope.Alike scopes others)
    (name : String) : (scopes.any fun scope => Dict.contains scope name) =
      others.any fun scope => Dict.contains scope name := by
  induction alike with
  | nil => rfl
  | cons first rest ih => simp only [List.any_cons, first.contains_eq name, ih]

theorem assignIn {scopes others : List Scope} (alike : Forall₂ Scope.Alike scopes others)
    (name : String) (value : v.Alike w) :
    Forall₂ Scope.Alike (Context.assignIn name v scopes) (Context.assignIn name w others) := by
  induction alike with
  | nil => exact .nil
  | cons first rest ih =>
      simp only [Context.assignIn, first.contains_eq name]
      split
      · exact .cons (first.insert name value) rest
      · exact .cons first ih

theorem assign (alike : c.Alike d) (name : String) (value : v.Alike w) :
    (c.assign name v).Alike (d.assign name w) := by
  unfold Context.assign
  rw [alike.inner.contains_eq name, any_contains_eq alike.outer name]
  split
  · exact alike.bind name value
  · exact { alike with outer := assignIn alike.outer name value }

theorem pushScope (alike : c.Alike d) : c.pushScope.Alike d.pushScope :=
  { alike with inner := .nil, outer := .cons alike.inner alike.outer }

theorem popScope (alike : c.Alike d) : c.popScope.Alike d.popScope := by
  obtain ⟨_, _, scopes, _, _, _⟩ := c
  obtain ⟨_, _, others, _, _, _⟩ := d
  have outer : Forall₂ Scope.Alike scopes others := alike.outer
  cases outer with
  | nil => exact alike
  | cons first rest => exact { alike with inner := first, outer := rest }

end Context.Alike

abbrev BothOk {ε δ α β : Type} (x : Except ε α) (y : Except δ β) : Prop :=
  Together (fun _ _ => True) x y

/-- Scripts that call for their blocks at the same times, in alike contexts, as long as the blocks
leave alike contexts. -/
inductive Script.Alike : Script → Script → Prop
  | done {x y : Except Error Branch} {c d : Context} :
      Together Eq x y → c.Alike d → Script.Alike (.done x c) (.done y d)
  | block {c d : Context} {f g : Except Error Unit → Context → Script} :
      c.Alike d →
      (∀ x y c d, BothOk x y → Context.Alike c d → Script.Alike (f x c) (g y d)) →
      Script.Alike (.block c f) (.block d g)

/-- Evaluators that give alike values, none of them a safe text, in alike contexts. -/
structure Evaluator.Alike (e f : Evaluator) : Prop where
  evaluate : ∀ code c d, Context.Alike c d →
    Together (fun v w => v.Alike w ∧ v.isSafe = false) (e.evaluate code c) (f.evaluate code d)
  execute : ∀ code c d previous hasBlock, Context.Alike c d →
    Script.Alike (e.execute code c previous hasBlock) (f.execute code d previous hasBlock)

theorem Script.Alike.once {c d : Context} (alike : c.Alike d) (branch : Branch) (hasBlock : Bool) :
    Script.Alike (.once branch hasBlock c) (.once branch hasBlock d) := by
  cases hasBlock with
  | true => exact .block alike fun x y c d both alike => .done (both.map fun _ _ _ => rfl) alike
  | false => exact .done (.ok rfl) alike

/-- Blocks that keep the states of two runs related keep them so to the end of alike scripts. -/
theorem Script.Alike.run {σ : Type} {R : σ → σ → Prop} {s t : Script}
    {body other : Context → σ → Except Error Unit × Context × σ} (alike : s.Alike t)
    (blocks : ∀ c d a b, Context.Alike c d → R a b → BothOk (body c a).1 (other d b).1 ∧
      Context.Alike (body c a).2.1 (other d b).2.1 ∧ R (body c a).2.2 (other d b).2.2)
    {a b : σ} (related : R a b) :
    Together Eq (s.run body a).1 (t.run other b).1 ∧
      Context.Alike (s.run body a).2.1 (t.run other b).2.1 ∧
      R (s.run body a).2.2 (t.run other b).2.2 := by
  induction alike generalizing a b with
  | done outcomes contexts => exact ⟨outcomes, contexts, related⟩
  | block contexts _ ih =>
      obtain ⟨outcomes, contexts, related⟩ := blocks _ _ a b contexts related
      exact ih _ _ _ _ outcomes contexts related

namespace Evaluator.Expressions

structure ValuesAlike (f g : String → Context → Except Error Value) : Prop where
  value : ∀ code c d, Context.Alike c d → Together Value.Alike (f code c) (g code d)

variable {f g : String → Context → Except Error Value}

variable {c d : Context}

theorem conditional_alike (values : ValuesAlike f g) (condition : String) (wanted hasBlock : Bool)
    (alike : c.Alike d) :
    Script.Alike (conditional f condition wanted c hasBlock)
      (conditional g condition wanted d hasBlock) := by
  have value := values.value condition c d alike
  unfold conditional
  generalize f condition c = x at value
  generalize g condition d = y at value
  cases value with
  | error e e' => exact .done (.error e e') alike
  | ok value =>
      simp only [value.isTrue_eq]
      split
      · exact .once alike .taken hasBlock
      · exact .done (.ok rfl) alike

theorem unpack_alike {v w : Value} (item : v.Alike w) (i : Nat) (targets : List String) :
    Together Scope.Alike (unpack v i targets) (unpack w i targets) := by
  induction targets generalizing i with
  | nil => exact .ok .nil
  | cons target rest ih =>
      rw [unpack, unpack]
      refine (item.getItem_int i).bind fun part part' alike => ?_
      exact (ih (i + 1)).bind fun parts parts' others => .ok (.cons ⟨rfl, alike⟩ others)

def ItemsAlike (v w a b : Value) : Prop :=
  a.Alike b ∧ (v.kind = .map → Together Value.Alike (v.getItem a) (w.getItem b))

theorem targetsAt_alike {v w a b : Value} (kind : v.kind = w.kind) (item : ItemsAlike v w a b)
    (targets : List String) :
    Together Scope.Alike (targetsAt v targets a) (targetsAt w targets b) := by
  unfold targetsAt
  split
  · exact .ok (.cons ⟨rfl, item.1⟩ .nil)
  · rw [← kind]
    split
    · next map =>
        refine (item.2 (by simpa using map)).bind fun value value' alike => ?_
        exact .ok (.cons ⟨rfl, item.1⟩ (.cons ⟨rfl, alike⟩ .nil))
    · exact unpack_alike item.1 0 _
  · exact unpack_alike item.1 0 _

theorem eachItem_alike {v w : Value} (kind : v.kind = w.kind) (targets : List String)
    (length index : Nat) {items others : List Value} (item : Forall₂ (ItemsAlike v w) items others)
    (alike : c.Alike d) :
    Script.Alike (eachItem v targets length index items c)
      (eachItem w targets length index others d) := by
  induction item generalizing index c d with
  | nil => exact .done (.ok rfl) alike
  | cons first rest ih =>
      have bound := targetsAt_alike kind first targets
      unfold eachItem
      generalize targetsAt v targets _ = x at bound
      generalize targetsAt w targets _ = y at bound
      cases bound with
      | error e e' => exact .done (.error _ _) alike
      | ok bound =>
          refine .block ((alike.pushScope.bindAll bound).bind "loop" (.same _)) ?_
          intro x y c d both alike
          cases both with
          | error e e' => exact .done (.error e e') alike.popScope
          | ok _ => exact ih (index + 1) alike.popScope

theorem items_alike {v w : Value} (alike : v.Alike w) :
    Together (Forall₂ (ItemsAlike v w)) v.items w.items := by
  cases alike with
  | same =>
      unfold Value.items
      cases v.items? with
      | none => exact .error _ _
      | some items =>
          refine .ok (List.forall₂_same.mpr fun a _ => ⟨.same a, fun _ => ?_⟩)
          cases v.getItem a with
          | ok part => exact .ok (.same part)
          | error fault => exact .error _ _
  | text length => exact .ok ((Value.Alike.forall₂_ofChar length).imp fun a b alike =>
      ⟨alike, nofun⟩)
  | list items => exact .ok (items.imp fun a b alike => ⟨alike, nofun⟩)
  | iter items => exact .ok (items.imp fun a b alike => ⟨alike, nofun⟩)
  | map keys values order =>
      obtain ⟨length, each⟩ := List.forall₂_iff_zip.mp keys
      refine .ok (List.forall₂_iff_zip.mpr ⟨length, fun {a b} here => ⟨each here, fun _ => ?_⟩⟩)
      refine (Value.Alike.map keys values order).getItem (Value.Alike.atKey? ?_ values)
      exact List.forall₂_iff_zip.mpr ⟨length, fun {k l} there => order (k, l) there (a, b) here⟩
  | renderer => exact .ok .nil

theorem each_alike (values : ValuesAlike f g) (targets : List String) (items : String)
    (hasBlock : Bool) (alike : c.Alike d) :
    Script.Alike (each f targets items c hasBlock) (each g targets items d hasBlock) := by
  have collection := values.value items c d alike
  unfold each
  generalize f items c = x at collection
  generalize g items d = y at collection
  cases collection with
  | error e e' => exact .done (.error e e') alike
  | @ok v w collection =>
      have parts := items_alike collection
      simp only
      generalize v.items = x at parts
      generalize w.items = y at parts
      cases parts with
      | error e e' => exact .done (.error _ _) alike
      | ok parts =>
          have length := parts.length_eq
          cases parts with
          | nil => exact .done (.ok rfl) alike
          | cons first rest =>
              cases hasBlock with
              | true =>
                  simp only [length]
                  exact eachItem_alike collection.kind_eq targets _ 0 (.cons first rest) alike
              | false => exact .done (.ok rfl) alike

/-- Alike values of expressions make the scripts of the expression language alike. -/
theorem run_alike (values : ValuesAlike f g) (statement : Statement) (previous : Branch)
    (hasBlock : Bool) (alike : c.Alike d) :
    Script.Alike (run f statement c previous hasBlock) (run g statement d previous hasBlock) := by
  cases statement with
  | ifTrue condition => exact conditional_alike values condition true hasBlock alike
  | ifFalse condition => exact conditional_alike values condition false hasBlock alike
  | elseIf condition =>
      cases previous with
      | taken => exact .done (.ok rfl) alike
      | skipped => exact conditional_alike values condition true hasBlock alike
      | idle => exact .done (.error _ _) alike
  | otherwise =>
      cases previous with
      | taken => exact .done (.ok rfl) alike
      | skipped => exact .once alike .idle hasBlock
      | idle => exact .done (.error _ _) alike
  | each targets items => exact each_alike values targets items hasBlock alike
  | assign name code =>
      have value := values.value code c d alike
      simp only [run]
      generalize f code c = x at value
      generalize g code d = y at value
      cases value with
      | error e e' => exact .done (.error e e') alike
      | ok value => exact .done (.ok rfl) (alike.assign name value)
  | blockEnd => exact .done (.ok rfl) alike
  | expression code =>
      have value := values.value code c d alike
      simp only [run]
      generalize f code c = x at value
      generalize g code d = y at value
      cases value with
      | error e e' => exact .done (.error e e') alike
      | ok value => exact .once alike .idle hasBlock

end Evaluator.Expressions

def Evaluator.ofValues (value? : String → Context → Except Error Value) : Evaluator :=
  ⟨value?, fun _ => .ok (), fun code => Expressions.run value? (Statement.read code)⟩

theorem Evaluator.ofValues_alike {f g : String → Context → Except Error Value}
    (values : ∀ code c d, Context.Alike c d →
      Together (fun v w => v.Alike w ∧ v.isSafe = false) (f code c) (g code d)) :
    (ofValues f).Alike (ofValues g) where
  evaluate := values
  execute := by
    intro code c d previous hasBlock alike
    have both : Expressions.ValuesAlike f g :=
      ⟨fun code c d alike => (values code c d alike).mono fun _ _ h => h.1⟩
    simp only [ofValues]
    exact Expressions.run_alike both (Statement.read code) previous hasBlock alike

end Haml
