import Haml.Error
import Mathlib.Data.List.Basic
import Mathlib.Data.List.TakeWhile
/-! Reading by offsets: texts are cut at counts of bytes, lists at indices, and a step that is not
defined for its operands leaves the reading without outcome. -/

namespace Haml.Offset

/-- The bytes that a text takes in UTF-8. -/
def byteLength : List Char → Nat
  | [] => 0
  | c :: cs => c.utf8Size + byteLength cs

def dropBytes : Nat → List Char → Option (List Char)
  | 0, cs => some cs
  | _ + 1, [] => none
  | n + 1, c :: cs => if c.utf8Size ≤ n + 1 then dropBytes (n + 1 - c.utf8Size) cs else none

def takeBytes : Nat → List Char → Option (List Char)
  | 0, _ => some []
  | _ + 1, [] => none
  | n + 1, c :: cs =>
      if c.utf8Size ≤ n + 1 then (takeBytes (n + 1 - c.utf8Size) cs).map (c :: ·) else none

/-- The text between two offsets; none unless they are in order and both between characters. -/
def cut (text : List Char) (start stop : Nat) : Option (List Char) :=
  if start ≤ stop then (dropBytes start text).bind (takeBytes (stop - start)) else none

def cutFrom (text : List Char) (start : Nat) : Option (List Char) :=
  cut text start (byteLength text)

def range {α : Type} (xs : List α) (start stop : Nat) : Option (List α) :=
  if start ≤ stop ∧ stop ≤ xs.length then some ((xs.take stop).drop start) else none

def rangeFrom {α : Type} (xs : List α) (start : Nat) : Option (List α) := range xs start xs.length

def item {α : Type} (xs : List α) (index : Nat) : Option α := xs[index]?

def sub (a b : Nat) : Option Nat := if b ≤ a then some (a - b) else none

def mul (bound a b : Nat) : Option Nat := if a * b ≤ bound then some (a * b) else none

def div (a b : Nat) : Option Nat := if b = 0 then none else some (a / b)

def mod (a b : Nat) : Option Nat := if b = 0 then none else some (a % b)

def find? (p : Char → Bool) : List Char → Option Nat
  | [] => none
  | c :: cs => if p c then some 0 else (find? p cs).map (c.utf8Size + ·)

section Bytes

variable {xs ys zs cs : List Char} {p : Char → Bool}

@[simp] theorem byteLength_nil : byteLength [] = 0 := rfl

@[simp] theorem byteLength_cons (c : Char) (cs : List Char) :
    byteLength (c :: cs) = c.utf8Size + byteLength cs := rfl

@[simp] theorem byteLength_append (xs ys : List Char) :
    byteLength (xs ++ ys) = byteLength xs + byteLength ys := by
  induction xs with
  | nil => simp
  | cons c xs ih => simp [ih, Nat.add_assoc]

theorem utf8ByteSize_ofList (cs : List Char) :
    (String.ofList cs).utf8ByteSize = byteLength cs := by
  induction cs with
  | nil => simp
  | cons c cs ih =>
      have first : String.ofList (c :: cs) = String.singleton c ++ String.ofList cs := by
        rw [String.singleton_eq_ofList, ← String.ofList_append]
        rfl
      rw [first, String.utf8ByteSize_append, String.utf8ByteSize_singleton, ih, byteLength_cons]

theorem byteLength_toList (s : String) : byteLength s.toList = s.utf8ByteSize := by
  rw [← utf8ByteSize_ofList, String.ofList_toList]

theorem length_le_byteLength (cs : List Char) : cs.length ≤ byteLength cs := by
  induction cs with
  | nil => simp
  | cons c cs ih =>
      have positive := c.utf8Size_pos
      simp only [byteLength_cons, List.length_cons]
      omega

theorem byteLength_le_of_sublist (sub : xs.Sublist ys) : byteLength xs ≤ byteLength ys := by
  induction sub with
  | slnil => simp
  | cons c _ ih =>
      simp only [byteLength_cons]
      omega
  | cons_cons c _ ih =>
      simp only [byteLength_cons]
      omega

theorem byteLength_eq_length (small : ∀ c ∈ cs, c.utf8Size = 1) : byteLength cs = cs.length := by
  induction cs with
  | nil => simp
  | cons c cs ih =>
      obtain ⟨here, rest⟩ := List.forall_mem_cons.mp small
      rw [byteLength_cons, here, ih rest, List.length_cons, Nat.add_comm]

theorem exists_byteLength_cons (c : Char) (cs : List Char) : ∃ n,
    byteLength (c :: cs) = n + 1 ∧ c.utf8Size ≤ n + 1 ∧ n + 1 - c.utf8Size = byteLength cs := by
  have positive := c.utf8Size_pos
  refine ⟨byteLength (c :: cs) - 1, ?_, ?_, ?_⟩ <;> rw [byteLength_cons] <;> omega

@[simp] theorem dropBytes_append (xs ys : List Char) :
    dropBytes (byteLength xs) (xs ++ ys) = some ys := by
  induction xs with
  | nil => simp [dropBytes]
  | cons c xs ih =>
      obtain ⟨n, count, fits, rest⟩ := exists_byteLength_cons c xs
      rw [count, List.cons_append, dropBytes, if_pos fits, rest, ih]

@[simp] theorem takeBytes_append (xs ys : List Char) :
    takeBytes (byteLength xs) (xs ++ ys) = some xs := by
  induction xs with
  | nil => simp [takeBytes]
  | cons c xs ih =>
      obtain ⟨n, count, fits, rest⟩ := exists_byteLength_cons c xs
      rw [count, List.cons_append, takeBytes, if_pos fits, rest, ih, Option.map_some]

theorem cut_append (xs ys zs : List Char) :
    cut (xs ++ (ys ++ zs)) (byteLength xs) (byteLength xs + byteLength ys) = some ys := by
  have inner : byteLength xs + byteLength ys - byteLength xs = byteLength ys := by omega
  rw [cut, if_pos (Nat.le_add_right _ _), dropBytes_append, Option.bind_some, inner,
    takeBytes_append]

theorem cut_eq (xs zs : List Char) {text : List Char} {start stop : Nat}
    (whole : text = xs ++ (ys ++ zs)) (first : start = byteLength xs)
    (last : stop = byteLength xs + byteLength ys) : cut text start stop = some ys := by
  rw [whole, first, last, cut_append]

theorem cut_front (zs : List Char) {text : List Char} {stop : Nat} (whole : text = ys ++ zs)
    (last : stop = byteLength ys) : cut text 0 stop = some ys := by
  apply cut_eq [] zs
  · simpa using whole
  · rfl
  · simpa using last

theorem cutFrom_eq (xs : List Char) {text : List Char} {start : Nat} (whole : text = xs ++ ys)
    (first : start = byteLength xs) : cutFrom text start = some ys := by
  apply cut_eq xs []
  · simpa using whole
  · exact first
  · simp [whole]

theorem sub_eq {a b c : Nat} (sum : a = b + c) : sub a b = some c := by
  have le : b ≤ a := by omega
  have rest : a - b = c := by omega
  rw [sub, if_pos le, rest]

theorem find?_getD (p : Char → Bool) (cs : List Char) :
    (find? (fun c => !p c) cs).getD (byteLength cs) = byteLength (cs.takeWhile p) := by
  induction cs with
  | nil => rfl
  | cons c cs ih =>
      cases holds : p c with
      | true =>
          rw [List.takeWhile_cons_of_pos holds, byteLength_cons, byteLength_cons, ← ih]
          cases found : find? (fun c => !p c) cs <;> simp [find?, holds, found]
      | false => simp [find?, holds]

end Bytes

section Ranges

variable {α : Type} {xs ys zs whole : List α} {start stop : Nat}

theorem range_eq (xs zs : List α) (known : whole = xs ++ (ys ++ zs)) (first : start = xs.length)
    (last : stop = xs.length + ys.length) : range whole start stop = some ys := by
  have bounds : start ≤ stop ∧ stop ≤ whole.length := by
    rw [known, List.length_append, List.length_append]
    omega
  rw [range, if_pos bounds, known, ← List.append_assoc, last, ← List.length_append, List.take_left,
    first, List.drop_left]

theorem rangeFrom_eq (xs : List α) (known : whole = xs ++ ys) (first : start = xs.length) :
    rangeFrom whole start = some ys := by
  apply range_eq xs []
  · simpa using known
  · exact first
  · simp [known]

theorem item_eq (xs ys : List α) {x : α} (known : whole = xs ++ x :: ys)
    (here : start = xs.length) : item whole start = some x := by
  rw [item, known, here, List.getElem?_append_right (Nat.le_refl _), Nat.sub_self]
  rfl

theorem findIdx?_of_all {p : α → Bool} {before : List α} {x : α} (all : ∀ y ∈ before, p y = true)
    (here : p x = false) (after : List α) :
    (before ++ x :: after).findIdx? (fun y => !p y) = some before.length := by
  induction before with
  | nil => simp [List.findIdx?_cons, here]
  | cons y before ih =>
      obtain ⟨first, rest⟩ := List.forall_mem_cons.mp all
      rw [List.cons_append, List.findIdx?_cons, ih rest]
      simp [first]

theorem findIdx?_of_dropWhile_eq_nil {p : α → Bool} (empty : xs.dropWhile p = []) :
    xs.findIdx? (fun y => !p y) = .none := by
  rw [List.findIdx?_eq_none_iff]
  intro y member
  rw [List.dropWhile_eq_nil_iff.mp empty y member, Bool.not_true]

theorem findIdx?_of_dropWhile_eq_cons {p : α → Bool} {x : α} (found : xs.dropWhile p = x :: ys) :
    xs.findIdx? (fun y => !p y) = some (xs.takeWhile p).length := by
  have parts := List.takeWhile_append_dropWhile (p := p) (l := xs)
  have here : p x = false := by
    have head := List.head?_dropWhile_not p xs
    simpa [found] using head
  have all : ∀ y ∈ xs.takeWhile p, p y = true := by
    intro y
    exact List.mem_takeWhile_imp
  rw [found] at parts
  have index := findIdx?_of_all all here ys
  rwa [parts] at index

end Ranges

/-- A reading by offsets: it is refused or has a result, or else one of its steps is undefined. -/
abbrev Run (α : Type) := ExceptT Error Option α

theorem liftM_some_bind {α β : Type} (a : α) (f : α → Run β) :
    ((liftM (some a) : Run α) >>= f) = f a := rfl

/-- Whether a reading is defined throughout and ends as another computation does. -/
inductive Agrees {α β : Type} (R : α → β → Prop) : Run α → Except Error β → Prop
  | ok {a : α} {b : β} : R a b → Agrees R (pure a) (.ok b)
  | error (e : Error) : Agrees R (throw e) (.error e)

namespace Agrees

variable {α β γ δ : Type} {R : α → β → Prop} {S : γ → δ → Prop} {x : Run α} {y : Except Error β}

theorem bind {f : α → Run γ} {g : β → Except Error δ} (first : Agrees R x y)
    (next : ∀ a b, y = .ok b → R a b → Agrees S (f a) (g b)) :
    Agrees S (x >>= f) (y >>= g) := by
  cases first with
  | ok related => exact next _ _ rfl related
  | error e => exact .error e

theorem bind_ok {b : β} {f : α → Run γ} {z : Except Error δ} (first : Agrees R x (.ok b))
    (next : ∀ a, R a b → Agrees S (f a) z) : Agrees S (x >>= f) z := by
  cases first with
  | ok related => exact next _ related

theorem bind_error {e : Error} {f : α → Run γ} (first : Agrees R x (.error e)) :
    Agrees S (x >>= f) (.error e) := by
  cases first with
  | error => exact .error e

theorem step {o : Option α} {a : α} {f : α → Run γ} {z : Except Error δ} (defined : o = some a)
    (next : Agrees S (f a) z) : Agrees S ((liftM o : Run α) >>= f) z := by
  rw [defined]
  exact next

theorem map {f : α → γ} {g : β → δ} (both : Agrees R x y) (next : ∀ a b, R a b → S (f a) (g b)) :
    Agrees S (f <$> x) (g <$> y) := by
  cases both with
  | ok related => exact .ok (next _ _ related)
  | error e => exact .error e

theorem bind_map {f : α → Run γ} {g : β → δ} (first : Agrees R x y)
    (next : ∀ a b, R a b → Agrees S (f a) (.ok (g b))) : Agrees S (x >>= f) (g <$> y) := by
  cases first with
  | ok related => exact next _ _ related
  | error e => exact .error e

theorem mapM {f : α → Run γ} {g : β → Except Error γ} {as : List α} {bs : List β}
    (related : List.Forall₂ R as bs) (each : ∀ a b, R a b → Agrees Eq (f a) (g b)) :
    Agrees Eq (as.mapM f) (bs.mapM g) := by
  induction related with
  | nil => exact .ok rfl
  | cons first _ ih =>
      rw [List.mapM_cons, List.mapM_cons]
      refine (each _ _ first).bind fun c _ _ same => ih.bind fun cs _ _ rest => ?_
      rw [same, rest]
      exact .ok rfl

/-- A reading that agrees with a computation has its outcome. -/
theorem run_eq {y : Except Error α} (both : Agrees Eq x y) : x.run = some y := by
  cases both with
  | ok same =>
      rw [same]
      rfl
  | error e => rfl

end Agrees

end Haml.Offset
