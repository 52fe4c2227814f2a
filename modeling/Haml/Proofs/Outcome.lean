/-! Computations that may fail: what their parts have given if the whole has succeeded, and what two
of them have in common. -/

namespace Haml

section

variable {ε α β : Type}

theorem bind_ok {x : Except ε α} {f : α → Except ε β} {b : β} (h : x >>= f = .ok b) :
    ∃ a, x = .ok a ∧ f a = .ok b := by
  cases x with
  | error e => cases h
  | ok a => exact ⟨a, rfl, h⟩

theorem forM_ok {f : α → Except ε Unit} {as : List α} (ok : as.forM f = .ok ()) :
    ∀ a ∈ as, f a = .ok () := by
  induction as with
  | nil => simp
  | cons a as ih =>
      obtain ⟨done, first, rest⟩ := bind_ok ok
      exact List.forall_mem_cons.mpr ⟨first, ih rest⟩

theorem map_ok {x : Except ε α} {f : α → β} {b : β} (h : f <$> x = .ok b) :
    ∃ a, x = .ok a ∧ f a = b := by
  cases x with
  | error e => cases h
  | ok a =>
      cases h
      exact ⟨a, rfl, rfl⟩

theorem ok_of_mapError {δ : Type} {x : Except ε α} {f : ε → δ} {a : α} (h : x.mapError f = .ok a) :
    x = .ok a := by
  cases x with
  | error e => cases h
  | ok b =>
      cases h
      rfl

end

/-! Computations whose results differ by functions on them: each part comes out changed, and so does
the whole. -/

section Natural

variable {ε α β γ δ : Type} {g : α → β} {h : γ → δ}

theorem bind_natural {x : Except ε α} {y : Except ε β} {f : α → Except ε γ} {f' : β → Except ε δ}
    (first : y = g <$> x) (next : ∀ a, f' (g a) = h <$> f a) : y >>= f' = h <$> (x >>= f) := by
  subst first
  cases x with
  | error e => rfl
  | ok a => exact next a

theorem bind_same (x : Except ε α) {f : α → Except ε γ} {f' : α → Except ε δ}
    (next : ∀ a, f' a = h <$> f a) : x >>= f' = h <$> (x >>= f) := by
  cases x with
  | error e => rfl
  | ok a => exact next a

theorem foldlM_natural {f : γ → α → Except ε γ} {f' : δ → β → Except ε δ}
    (step : ∀ c a, f' (h c) (g a) = h <$> f c a) (as : List α) (c : γ) :
    (as.map g).foldlM f' (h c) = h <$> as.foldlM f c := by
  induction as generalizing c with
  | nil => rfl
  | cons a as ih =>
      rw [List.map_cons, List.foldlM_cons, List.foldlM_cons]
      exact bind_natural (step c a) ih

theorem mapM_natural {f : α → Except ε γ} {f' : β → Except ε δ}
    (each : ∀ a, f' (g a) = h <$> f a) (as : List α) :
    (as.map g).mapM f' = List.map h <$> as.mapM f := by
  induction as with
  | nil => rfl
  | cons a as ih =>
      rw [List.map_cons, List.mapM_cons, List.mapM_cons]
      apply bind_natural (each a)
      intro b
      exact bind_natural ih fun bs => rfl

theorem filterAuxM_natural {p : α → Except ε Bool} {p' : β → Except ε Bool}
    (same : ∀ a, p' (g a) = p a) (as known : List α) :
    (as.map g).filterAuxM p' (known.map g) = List.map g <$> as.filterAuxM p known := by
  induction as generalizing known with
  | nil => rfl
  | cons a as ih =>
      rw [List.map_cons, List.filterAuxM, List.filterAuxM, same]
      apply bind_same
      intro keep
      cases keep with
      | true => exact ih (a :: known)
      | false => exact ih known

theorem filterM_natural {p : α → Except ε Bool} {p' : β → Except ε Bool}
    (same : ∀ a, p' (g a) = p a) (as : List α) :
    (as.map g).filterM p' = List.map g <$> as.filterM p := by
  apply bind_natural (filterAuxM_natural same as [])
  intro kept
  rw [← List.map_reverse]
  rfl

end Natural

/-- Whether a computation gives no result but such as satisfy `P`. -/
def Gives {ε α : Type} (P : α → Prop) (x : Except ε α) : Prop := ∀ a, x = .ok a → P a

namespace Gives

variable {ε α β : Type} {P : α → Prop} {Q : β → Prop} {x : Except ε α}

theorem ok {a : α} (h : P a) : Gives P (.ok a : Except ε α) := by
  intro b given
  cases given
  exact h

theorem error (e : ε) : Gives P (.error e : Except ε α) := nofun

theorem any (x : Except ε α) : Gives (fun _ => True) x := fun _ _ => trivial

theorem bind {f : α → Except ε β} (first : Gives P x) (next : ∀ a, P a → Gives Q (f a)) :
    Gives Q (x >>= f) := by
  intro b given
  obtain ⟨a, here, rest⟩ := bind_ok given
  exact next a (first a here) b rest

theorem after {f : α → Except ε β} (next : ∀ a, Gives Q (f a)) : Gives Q (x >>= f) :=
  (any x).bind fun a _ => next a

theorem map {f : α → β} (first : Gives P x) (next : ∀ a, P a → Q (f a)) : Gives Q (f <$> x) := by
  cases x with
  | error e => exact error e
  | ok a => exact ok (next a (first a rfl))

theorem mapM {f : α → Except ε β} {as : List α} (each : ∀ a ∈ as, Gives Q (f a)) :
    Gives (fun bs => ∀ b ∈ bs, Q b) (as.mapM f) := by
  induction as with
  | nil => exact ok nofun
  | cons a as ih =>
      rw [List.mapM_cons]
      refine (each a (List.mem_cons_self ..)).bind fun b first => ?_
      refine (ih fun c member => each c (List.mem_cons_of_mem a member)).bind fun bs rest => ?_
      exact ok (List.forall_mem_cons.mpr ⟨first, rest⟩)

theorem foldlM {f : β → α → Except ε β} {as : List α}
    (step : ∀ b, ∀ a ∈ as, Q b → Gives Q (f b a)) {b : β} (start : Q b) :
    Gives Q (as.foldlM f b) := by
  induction as generalizing b with
  | nil => exact ok start
  | cons a as ih =>
      rw [List.foldlM_cons]
      refine (step b a (List.mem_cons_self ..) start).bind fun next here => ?_
      exact ih (fun c d member => step c d (List.mem_cons_of_mem a member)) here

theorem filterAuxM {f : α → Except ε Bool} {as known : List α} (all : ∀ a ∈ as, P a)
    (start : ∀ a ∈ known, P a) : Gives (fun bs => ∀ a ∈ bs, P a) (as.filterAuxM f known) := by
  induction as generalizing known with
  | nil => exact ok start
  | cons a as ih =>
      obtain ⟨here, rest⟩ := List.forall_mem_cons.mp all
      refine after fun keep => ih rest ?_
      cases keep with
      | true => exact List.forall_mem_cons.mpr ⟨here, start⟩
      | false => exact start

theorem filterM {f : α → Except ε Bool} {as : List α} (all : ∀ a ∈ as, P a) :
    Gives (fun bs => ∀ a ∈ bs, P a) (as.filterM f) :=
  (filterAuxM all (List.forall_mem_nil P)).bind fun _ kept =>
    ok fun a member => kept a (List.mem_reverse.mp member)

theorem ite {c : Prop} [Decidable c] {y : Except ε α} (yes : Gives P x) (no : Gives P y) :
    Gives P (if c then x else y) := by
  split
  · exact yes
  · exact no

end Gives

/-- Whether a computation fails only in ways that satisfy `P`. -/
def Fails {ε α : Type} (P : ε → Prop) (x : Except ε α) : Prop := ∀ e, x = .error e → P e

namespace Fails

variable {ε α β : Type} {P : ε → Prop} {x : Except ε α}

theorem ok (a : α) : Fails P (.ok a) := nofun

theorem error {e : ε} (h : P e) : Fails P (.error e : Except ε α) := by
  intro e' given
  cases given
  exact h

theorem bind {f : α → Except ε β} (first : Fails P x) (next : ∀ a, Fails P (f a)) :
    Fails P (x >>= f) := by
  intro e failed
  cases x with
  | error e' =>
      cases failed
      exact first e rfl
  | ok a => exact next a e failed

theorem map {f : α → β} (first : Fails P x) : Fails P (f <$> x) := by
  intro e failed
  cases x with
  | error e' =>
      cases failed
      exact first e rfl
  | ok a => cases failed

theorem mono {Q : ε → Prop} (fails : Fails P x) (weaker : ∀ e, P e → Q e) : Fails Q x :=
  fun e failed => weaker e (fails e failed)

theorem foldlM_mem {f : β → α → Except ε β} {as : List α} (each : ∀ b, ∀ a ∈ as, Fails P (f b a))
    (b : β) : Fails P (as.foldlM f b) := by
  induction as generalizing b with
  | nil => exact ok b
  | cons a as ih =>
      rw [List.foldlM_cons]
      apply (each b a (List.mem_cons_self ..)).bind
      exact ih fun b a' member => each b a' (List.mem_cons_of_mem a member)

theorem foldlM {f : β → α → Except ε β} (each : ∀ b a, Fails P (f b a)) (as : List α) (b : β) :
    Fails P (as.foldlM f b) :=
  foldlM_mem (fun b a _ => each b a) b

theorem forM {f : α → Except ε Unit} (each : ∀ a, Fails P (f a)) (as : List α) :
    Fails P (as.forM f) := by
  induction as with
  | nil => exact ok ()
  | cons a as ih => exact (each a).bind fun _ => ih

theorem filterAuxM {f : α → Except ε Bool} (each : ∀ a, Fails P (f a)) (as known : List α) :
    Fails P (as.filterAuxM f known) := by
  induction as generalizing known with
  | nil => exact ok known
  | cons a as ih => exact (each a).bind fun keep => ih _

theorem filterM {f : α → Except ε Bool} (each : ∀ a, Fails P (f a)) (as : List α) :
    Fails P (as.filterM f) :=
  (filterAuxM each as []).bind fun kept => ok kept.reverse

theorem mapM {f : α → Except ε β} (each : ∀ a, Fails P (f a)) (as : List α) :
    Fails P (as.mapM f) := by
  induction as with
  | nil => exact ok []
  | cons a as ih =>
      rw [List.mapM_cons]
      apply (each a).bind
      intro b
      exact ih.bind fun bs => ok (b :: bs)

theorem ite {c : Prop} [Decidable c] {y : Except ε α} (yes : Fails P x) (no : Fails P y) :
    Fails P (if c then x else y) := by
  split
  · exact yes
  · exact no

end Fails

/-- Two computations that come out the same, with no result but such as satisfy `P`. -/
structure Agree {ε α : Type} (P : α → Prop) (x y : Except ε α) : Prop where
  same : x = y
  gives : Gives P x

namespace Agree

variable {ε α β : Type} {P : α → Prop} {Q : β → Prop} {x y : Except ε α}

theorem ok {a : α} (h : P a) : Agree P (.ok a : Except ε α) (.ok a) := ⟨rfl, .ok h⟩

theorem error (e : ε) : Agree P (.error e : Except ε α) (.error e) := ⟨rfl, .error e⟩

theorem of_gives (gives : Gives P x) : Agree P x x := ⟨rfl, gives⟩

theorem bind {f g : α → Except ε β} (first : Agree P x y) (next : ∀ a, P a → Agree Q (f a) (g a)) :
    Agree Q (x >>= f) (y >>= g) := by
  obtain ⟨rfl, gives⟩ := first
  refine ⟨?_, gives.bind fun a h => (next a h).gives⟩
  cases x with
  | error e => rfl
  | ok a => exact (next a (gives a rfl)).same

theorem mapError {δ : Type} {f : ε → δ} (both : Agree P x y) :
    Agree P (x.mapError f) (y.mapError f) := by
  obtain ⟨rfl, gives⟩ := both
  refine of_gives ?_
  cases x with
  | error e => exact .error _
  | ok a => exact .ok (gives a rfl)

end Agree

/-- Two computations both fail, or both succeed with related results. -/
inductive Together {ε δ α β : Type} (R : α → β → Prop) : Except ε α → Except δ β → Prop
  | ok {a : α} {b : β} : R a b → Together R (.ok a) (.ok b)
  | error (e : ε) (d : δ) : Together R (.error e) (.error d)

namespace Together

variable {ε δ α β α' β' : Type} {R : α → β → Prop} {S : α' → β' → Prop} {x : Except ε α}
  {y : Except δ β}

theorem bind_ok {f : α → Except ε α'} {g : β → Except δ β'} (first : Together R x y)
    (next : ∀ a b, x = .ok a → y = .ok b → R a b → Together S (f a) (g b)) :
    Together S (x >>= f) (y >>= g) := by
  cases first with
  | ok related => exact next _ _ rfl rfl related
  | error e d => exact .error e d

theorem bind {f : α → Except ε α'} {g : β → Except δ β'} (first : Together R x y)
    (next : ∀ a b, R a b → Together S (f a) (g b)) : Together S (x >>= f) (y >>= g) :=
  first.bind_ok fun a b _ _ related => next a b related

theorem map {f : α → α'} {g : β → β'} (both : Together R x y)
    (next : ∀ a b, R a b → S (f a) (g b)) : Together S (x.map f) (y.map g) := by
  cases both with
  | ok related => exact .ok (next _ _ related)
  | error e d => exact .error e d

theorem mono {S : α → β → Prop} (both : Together R x y) (weaker : ∀ a b, R a b → S a b) :
    Together S x y := by
  cases both with
  | ok related => exact .ok (weaker _ _ related)
  | error e d => exact .error e d

theorem of_ok {y : Except δ α} {a : α} (both : Together Eq x y) (ok : x = .ok a) : y = .ok a := by
  subst ok
  cases both with
  | ok same => rw [same]

theorem ite {c : Prop} [Decidable c] {x' : Except ε α} {y' : Except δ β} (yes : Together R x y)
    (no : Together R x' y') : Together R (if c then x else x') (if c then y else y') := by
  split
  · exact yes
  · exact no

theorem mapM {f : α' → Except ε β'} {g : α' → Except δ β'}
    (each : ∀ a, Together Eq (f a) (g a)) (as : List α') :
    Together Eq (as.mapM f) (as.mapM g) := by
  induction as with
  | nil => exact .ok rfl
  | cons a as ih =>
      rw [List.mapM_cons, List.mapM_cons]
      apply (each a).bind
      rintro b _ rfl
      apply ih.bind
      rintro bs _ rfl
      exact .ok rfl

theorem foldlM {f : α → α' → Except ε α} {g : β → α' → Except δ β} {as : List α'}
    (step : ∀ a ∈ as, ∀ x y, R x y → Together R (f x a) (g y a)) {x : α} {y : β} (start : R x y) :
    Together R (as.foldlM f x) (as.foldlM g y) := by
  induction as generalizing x y with
  | nil => exact .ok start
  | cons a as ih =>
      rw [List.foldlM_cons, List.foldlM_cons]
      refine (step a (List.mem_cons_self ..) x y start).bind fun x' y' related => ?_
      exact ih (fun b member => step b (List.mem_cons_of_mem a member)) related

end Together

/-- Two computations fail with the same error, or succeed with related results. -/
inductive InStep {ε α β : Type} (R : α → β → Prop) : Except ε α → Except ε β → Prop
  | ok {a : α} {b : β} : R a b → InStep R (.ok a) (.ok b)
  | error (e : ε) : InStep R (.error e) (.error e)

namespace InStep

variable {ε α β α' β' : Type} {R : α → β → Prop} {S : α' → β' → Prop} {x : Except ε α}
  {y : Except ε β}

theorem same {R : α → α → Prop} (related : ∀ a, R a a) (x : Except ε α) : InStep R x x := by
  cases x with
  | error e => exact error e
  | ok a => exact ok (related a)

theorem bind {f : α → Except ε α'} {g : β → Except ε β'} (first : InStep R x y)
    (next : ∀ a b, R a b → InStep S (f a) (g b)) : InStep S (x >>= f) (y >>= g) := by
  cases first with
  | ok related => exact next _ _ related
  | error e => exact error e

theorem ite {c : Prop} [Decidable c] {x' : Except ε α} {y' : Except ε β} (yes : InStep R x y)
    (no : InStep R x' y') : InStep R (if c then x else x') (if c then y else y') := by
  split
  · exact yes
  · exact no

theorem map_eq {γ : Type} {f : α → γ} {g : β → γ} (both : InStep R x y)
    (same : ∀ a b, R a b → f a = g b) : x.map f = y.map g := by
  cases both with
  | ok related => exact congrArg Except.ok (same _ _ related)
  | error e => rfl

theorem eq_error_iff (both : InStep R x y) (e : ε) : x = .error e ↔ y = .error e := by
  cases both with
  | ok related => exact ⟨nofun, nofun⟩
  | error e' => exact ⟨fun | rfl => rfl, fun | rfl => rfl⟩

end InStep

/-- A computation that comes out as another one does, with `g` of its result, unless it fails in one
of certain ways. -/
inductive Follows {ε α β : Type} (F : ε → Prop) (g : α → β) : Except ε α → Except ε β → Prop
  | same (x : Except ε α) : Follows F g x (g <$> x)
  | fails (x : Except ε α) {e : ε} : F e → Follows F g x (.error e)

namespace Follows

variable {ε α β γ δ : Type} {F : ε → Prop} {g : α → β} {h : γ → δ} {x : Except ε α}
  {y : Except ε β}

theorem of_eq (natural : y = g <$> x) : Follows F g x y := by
  rw [natural]
  exact same x

theorem eq (both : Follows F g x y) (never : ∀ e, ¬ F e) : y = g <$> x := by
  cases both with
  | same => rfl
  | fails failing => exact absurd failing (never _)

theorem ok (a : α) : Follows F g (.ok a) (.ok (g a)) := same (.ok a)

theorem error (e : ε) : Follows F g (.error e) (.error e) := same (.error e)

theorem bind {f : α → Except ε γ} {f' : β → Except ε δ} (first : Follows F g x y)
    (next : ∀ a, Follows F h (f a) (f' (g a))) : Follows F h (x >>= f) (y >>= f') := by
  cases first with
  | same =>
      cases x with
      | error e => exact error e
      | ok a => exact next a
  | fails failing => exact fails _ failing

theorem map {f : α → γ} {f' : β → δ} (first : Follows F g x y) (next : ∀ a, f' (g a) = h (f a)) :
    Follows F h (f <$> x) (f' <$> y) := by
  cases first with
  | same =>
      cases x with
      | error e => exact error e
      | ok a => exact of_eq (congrArg Except.ok (next a))
  | fails failing => exact fails _ failing

theorem mapError {κ : Type} {F : κ → Prop} {m : ε → κ} (both : Follows (fun e => F (m e)) g x y) :
    Follows F g (x.mapError m) (y.mapError m) := by
  cases both with
  | same =>
      cases x with
      | error e => exact error (m e)
      | ok a => exact ok a
  | fails failing => exact fails _ failing

theorem ite {c : Prop} [Decidable c] {x' : Except ε α} {y' : Except ε β} (yes : Follows F g x y)
    (no : Follows F g x' y') : Follows F g (if c then x else x') (if c then y else y') := by
  split
  · exact yes
  · exact no

end Follows

end Haml
