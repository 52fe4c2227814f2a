import Haml.Text.Blank
/-! Interpolated text: literal pieces and the expressions written `#{…}` between them. -/

namespace Haml

inductive Segment where
  | literal (text : String)
  | expression (code : String)
  deriving DecidableEq, Repr

namespace Interpolation

/-- The body of an expression up to the brace that closes it, and the text after that brace. Braces
nested in the body and braces in quotes do not close it. -/
def closing (depth : Nat) (quote : Option Char) (escaped : Bool) :
    List Char → Option (List Char × List Char)
  | [] => none
  | c :: cs =>
      match quote with
      | some q =>
          let stays := escaped || c == '\\' || c != q
          (closing depth (if stays then some q else none) (!escaped && c == '\\') cs).map
            fun (body, rest) => (c :: body, rest)
      | none =>
          if c == '}' && depth == 0 then some ([], cs)
          else
            let depth := if c == '{' then depth + 1 else if c == '}' then depth - 1 else depth
            let quote := if c == '\'' || c == '"' then some c else none
            (closing depth quote false cs).map fun (body, rest) => (c :: body, rest)

def closingBrace (cs : List Char) : Option (List Char × List Char) := closing 0 none false cs

theorem closing_append {depth : Nat} {quote : Option Char} {escaped : Bool}
    {cs body rest : List Char} (h : closing depth quote escaped cs = some (body, rest)) :
    cs = body ++ '}' :: rest := by
  induction cs generalizing depth quote escaped body with
  | nil => simp [closing] at h
  | cons c cs ih =>
      cases quote with
      | some q =>
          simp only [closing, Option.map_eq_some_iff, Prod.mk.injEq, Prod.exists] at h
          obtain ⟨b, r, hr, rfl, rfl⟩ := h
          simp [ih hr]
      | none =>
          simp only [closing] at h
          split at h
          · next hc =>
              simp only [Bool.and_eq_true, beq_iff_eq] at hc
              simp only [Option.some.injEq, Prod.mk.injEq] at h
              obtain ⟨rfl, rfl⟩ := h
              simp [hc.1]
          · simp only [Option.map_eq_some_iff, Prod.mk.injEq, Prod.exists] at h
            obtain ⟨b, r, hr, rfl, rfl⟩ := h
            simp [ih hr]

theorem length_closingBrace {cs body rest : List Char} (h : closingBrace cs = some (body, rest)) :
    rest.length < cs.length := by
  rw [closing_append h]
  simp
  omega

def flush (literal : List Char) : List Segment :=
  if literal.isEmpty then [] else [.literal (String.ofList literal)]

/-- Cuts a text into its segments, `literal` being the literal text read so far; `none` if an
expression is not closed. A marker after a backslash stands for itself. -/
def splitFrom (literal : List Char) : List Char → Option (List Segment)
  | '\\' :: '#' :: '{' :: rest => splitFrom (literal ++ ['#', '{']) rest
  | '#' :: '{' :: rest =>
      match _h : closingBrace rest with
      | none => none
      | some (code, after) =>
          (splitFrom [] after).map fun segments =>
            flush literal ++ .expression (String.ofList (Text.trim code)) :: segments
  | c :: rest => splitFrom (literal ++ [c]) rest
  | [] => some (flush literal)
termination_by cs => cs.length
decreasing_by
  · simp only [List.length_cons]
    omega
  · have := length_closingBrace _h
    simp only [List.length_cons]
    omega
  · exact Nat.lt_succ_self _

def split (text : List Char) : Option (List Segment) := splitFrom [] text

def isMarked : List Char → Bool
  | '\\' :: '#' :: '{' :: rest => isMarked rest
  | '#' :: '{' :: _ => true
  | _ :: rest => isMarked rest
  | [] => false

theorem infix_of_isMarked {cs : List Char} (marked : isMarked cs = true) : ['#', '{'] <:+: cs := by
  fun_induction isMarked cs with
  | case1 rest ih => exact (ih marked).trans ⟨['\\', '#', '{'], [], by simp⟩
  | case2 rest => exact ⟨[], rest, rfl⟩
  | case3 c rest _ _ ih => exact (ih marked).trans (List.infix_cons (List.infix_refl rest))
  | case4 => cases marked

end Interpolation

end Haml
