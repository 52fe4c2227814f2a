import Haml.Proofs.Markers
import Haml.Proofs.Offset.Slice
/-! Interpolated texts by offsets: markers are searched, and texts cut before and after them. -/

namespace Haml.Offset

open Interpolation (Marked exists_of_marked isMarked_cons isMarked_backslash splitFrom_cons
  splitFrom_marker)

def marker? : List Char → Option Nat
  | [] => none
  | c :: cs =>
      if ['#', '{'].isPrefixOf (c :: cs) then some 0 else (marker? cs).map (c.utf8Size + ·)

def markersFrom (offset : Nat) : List Char → List Nat
  | [] => []
  | c :: cs =>
      if ['#', '{'].isPrefixOf (c :: cs) then offset :: markersFrom (offset + c.utf8Size) cs
      else markersFrom (offset + c.utf8Size) cs

def isBare (text : List Char) (offset : Nat) : Option Bool :=
  (cut text 0 offset).map fun before => before.getLast? != some '\\'

def isMarked (text : List Char) : Option Bool := (markersFrom 0 text).anyM (isBare text)

def closingFrom (offset depth : Nat) (quote : Option Char) (escaped : Bool) :
    List Char → Option (Option Nat)
  | [] => some none
  | c :: cs =>
      let next := offset + c.utf8Size
      match quote with
      | some q =>
          if escaped then closingFrom next depth quote false cs
          else if c == '\\' then closingFrom next depth quote true cs
          else if c == q then closingFrom next depth none escaped cs
          else closingFrom next depth quote escaped cs
      | none =>
          if c == '\'' || c == '"' then closingFrom next depth (some c) escaped cs
          else if c == '{' then closingFrom next (depth + 1) quote escaped cs
          else if c == '}' then
            if depth = 0 then some (some offset)
            else do closingFrom next (← sub depth 1) quote escaped cs
          else closingFrom next depth quote escaped cs

/-- A text that is being split: the segments so far, the literal text after them, and what is still
to read. -/
structure Splitting where
  segments : List Segment
  literal : List Char
  rest : List Char

def Splitting.read (line : Nat) (s : Splitting) : Run (List Segment) :=
  match marker? s.rest with
  | none => pure (s.segments ++ Interpolation.flush (s.literal ++ s.rest))
  | some offset => do
      let before ← cut s.rest 0 offset
      if before.getLast? = some '\\' then
        let kept ← cut s.rest 0 (← sub offset 1)
        let after ← cutFrom s.rest (offset + 2)
        { s with literal := s.literal ++ kept ++ ['#', '{'], rest := after } |>.read line
      else
        let body ← cutFrom s.rest (offset + 2)
        match ← closingFrom 0 0 none false body with
        | none => throw (.unterminatedInterpolation line)
        | some stop =>
            let code ← cut body 0 stop
            let after ← cutFrom body (stop + 1)
            let known := s.segments ++ Interpolation.flush (s.literal ++ before)
            let expression := .expression (String.ofList (Text.trim code))
            { segments := known ++ [expression], literal := [], rest := after : Splitting }
              |>.read line
partial_fixpoint

def split (line : Nat) (text : List Char) : Run (List Segment) := Splitting.read line ⟨[], [], text⟩

section Markers

variable {cs : List Char} {c : Char} {offset : Nat}

theorem splitFrom_of_marker?_eq_none {literal : List Char} (absent : marker? cs = none) :
    Interpolation.splitFrom literal cs = some (Interpolation.flush (literal ++ cs)) := by
  induction cs generalizing literal with
  | nil => simp [Interpolation.splitFrom]
  | cons c cs ih =>
      rw [marker?] at absent
      split at absent
      · cases absent
      · next here =>
          rw [List.isPrefixOf_iff_prefix] at here
          have later : marker? cs = .none := by simpa using absent
          have next : ¬ Marked cs := by
            intro marked
            obtain ⟨after, rfl⟩ := exists_of_marked marked
            simp [marker?] at later
          rw [splitFrom_cons here fun _ => next, ih later, List.append_assoc]
          rfl

/-- What the first marker of a text makes of it: it is the literal text in it after a backslash, or
else it opens an expression. -/
theorem splitFrom_of_marker? (found : marker? cs = some offset) :
    ∃ before after, cs = before ++ '#' :: '{' :: after ∧ offset = byteLength before ∧
      (before.getLast? = some '\\' → ∀ literal, Interpolation.splitFrom literal cs =
        Interpolation.splitFrom (literal ++ before.dropLast ++ ['#', '{']) after) ∧
      (before.getLast? ≠ some '\\' → ∀ literal, Interpolation.splitFrom literal cs =
        Interpolation.splitFrom (literal ++ before) ('#' :: '{' :: after)) := by
  induction cs generalizing offset with
  | nil => cases found
  | cons c cs ih =>
      rw [marker?] at found
      split at found
      · next here =>
          cases found
          obtain ⟨after, whole⟩ := exists_of_marked (List.isPrefixOf_iff_prefix.mp here)
          exact ⟨[], after, whole, rfl, by simp, by simp [whole]⟩
      · next here =>
          rw [List.isPrefixOf_iff_prefix] at here
          obtain ⟨later, inside, rfl⟩ := Option.map_eq_some_iff.mp found
          obtain ⟨before, after, whole, rfl, escaped, opens⟩ := ih inside
          refine ⟨c :: before, after, congrArg (c :: ·) whole, rfl, ?_⟩
          cases before with
          | nil =>
              rw [List.nil_append] at whole
              subst whole
              constructor
              · intro last literal
                obtain rfl : c = '\\' := by simpa using last
                rw [Interpolation.splitFrom]
                simp
              · intro last literal
                have plain : c ≠ '\\' := by simpa using last
                rw [splitFrom_cons here (absurd · plain)]
          | cons d before =>
              have next : ¬ Marked cs := by
                intro marked
                obtain ⟨rest, rfl⟩ := exists_of_marked marked
                have positive := d.utf8Size_pos
                simp [marker?] at inside
                omega
              constructor
              · intro last literal
                rw [splitFrom_cons here fun _ => next, escaped (by simpa using last)]
                simp
              · intro last literal
                rw [splitFrom_cons here fun _ => next, opens (by simpa using last)]
                simp

end Markers

theorem isMarked_from (before cs : List Char) :
    (markersFrom (byteLength before) cs).anyM (isBare (before ++ cs)) =
      some (Interpolation.isMarked (if before.getLast? = some '\\' then '\\' :: cs else cs)) := by
  induction cs generalizing before with
  | nil =>
      split
      · rfl
      · rfl
  | cons c cs ih =>
      have rest := ih (before ++ [c])
      simp only [byteLength_append, byteLength_cons, byteLength_nil, Nat.add_zero,
        List.append_assoc, List.singleton_append, List.getLast?_concat, Option.some.injEq] at rest
      rw [markersFrom]
      split
      · next here =>
          obtain ⟨after, whole⟩ := exists_of_marked (List.isPrefixOf_iff_prefix.mp here)
          cases whole
          have bare : isBare (before ++ '#' :: '{' :: after) (byteLength before) =
              some (before.getLast? != some '\\') := by
            rw [isBare, cut_front _ rfl rfl, Option.map_some]
          by_cases last : before.getLast? = some '\\'
          · rw [last, bne_self_eq_false] at bare
            rw [List.anyM_cons, bare, if_pos last]
            refine rest.trans ?_
            simp [Interpolation.isMarked]
          · have differs : (before.getLast? != some '\\') = true := by simpa using last
            rw [differs] at bare
            rw [List.anyM_cons, bare, if_neg last]
            simp [Interpolation.isMarked]
      · next here =>
          rw [List.isPrefixOf_iff_prefix] at here
          have head : Interpolation.isMarked (if c = '\\' then '\\' :: cs else cs) =
              Interpolation.isMarked (c :: cs) := by
            by_cases backslash : c = '\\'
            · rw [if_pos backslash, backslash]
            · rw [if_neg backslash, isMarked_cons here backslash]
          rw [rest, head]
          split
          · rw [isMarked_backslash here]
          · rfl

theorem isMarked_eq (text : List Char) : isMarked text = some (Interpolation.isMarked text) :=
  isMarked_from [] text

theorem map_cons_closed (offset : Nat) (c : Char) (closed : Option (List Char × List Char)) :
    ((closed.map fun (body, rest) => (c :: body, rest)).map fun p => offset + byteLength p.1) =
      closed.map fun p => offset + c.utf8Size + byteLength p.1 := by
  cases closed <;> simp [Nat.add_assoc]

theorem closingFrom_eq (offset depth : Nat) (quote : Option Char) (escaped : Bool)
    (cs : List Char) (outside : quote = none → escaped = false) :
    closingFrom offset depth quote escaped cs = some
      ((Interpolation.closing depth quote escaped cs).map fun p => offset + byteLength p.1) := by
  induction cs generalizing offset depth quote escaped with
  | nil => rfl
  | cons c cs ih =>
      cases quote with
      | some q =>
          rw [closingFrom, Interpolation.closing, map_cons_closed]
          cases escaped with
          | true => simp [ih]
          | false =>
              by_cases backslash : c = '\\'
              · simp [backslash, ih]
              · have plain : (c == '\\') = false := by simpa using backslash
                by_cases closes : c = q
                · subst closes
                  simp [plain, ih]
                · simp [plain, closes, ih]
      | none =>
          obtain rfl := outside rfl
          rw [closingFrom, Interpolation.closing]
          by_cases quotes : c = '\'' ∨ c = '"'
          · have notClosing : c ≠ '}' := by rcases quotes with rfl | rfl <;> decide
            have notOpening : c ≠ '{' := by rcases quotes with rfl | rfl <;> decide
            simp [quotes, notClosing, notOpening, ih, Function.comp_def, Nat.add_assoc]
          by_cases closes : c = '}'
          · subst closes
            by_cases last : depth = 0
            · simp [last]
            · obtain ⟨less, rfl⟩ := Nat.exists_eq_succ_of_ne_zero last
              simp [sub, ih, Function.comp_def, Nat.add_assoc]
          · have rest := map_cons_closed offset c
              (Interpolation.closing (if c == '{' then depth + 1 else depth) none false cs)
            by_cases opens : c = '{'
            · simp_all
            · simp_all

def orUnterminated (line : Nat) : Option (List Segment) → Except Error (List Segment)
  | none => .error (.unterminatedInterpolation line)
  | some segments => .ok segments

section Steps

variable {before after literal rest : List Char} {segments : List Segment} {offset : Nat}

theorem cutFrom_marker (whole : rest = before ++ '#' :: '{' :: after)
    (length : offset = byteLength before) : cutFrom rest (offset + 2) = some after := by
  have marker : byteLength ['#', '{'] = 2 := rfl
  apply cutFrom_eq (before ++ ['#', '{'])
  · simp [whole]
  · rw [byteLength_append, marker, length]

theorem Splitting.read_escaped (found : marker? rest = some offset)
    (whole : rest = (before ++ ['\\']) ++ '#' :: '{' :: after)
    (length : offset = byteLength (before ++ ['\\'])) (line : Nat) :
    Splitting.read line ⟨segments, literal, rest⟩ =
      Splitting.read line ⟨segments, literal ++ before ++ ['#', '{'], after⟩ := by
  have backslash : byteLength ['\\'] = 1 := rfl
  have last : (before ++ ['\\']).getLast? = some '\\' := List.getLast?_concat
  have less : sub offset 1 = some (byteLength before) := by
    apply sub_eq
    rw [length, byteLength_append, backslash, Nat.add_comm]
  have kept : cut rest 0 (byteLength before) = some before := by
    apply cut_front ('\\' :: '#' :: '{' :: after)
    · simp [whole]
    · rfl
  rw [Splitting.read, found]
  dsimp only
  rw [cut_front _ whole length, liftM_some_bind, if_pos last, less, liftM_some_bind, kept,
    liftM_some_bind, cutFrom_marker whole length, liftM_some_bind]

theorem Splitting.read_opened (found : marker? rest = some offset)
    (whole : rest = before ++ '#' :: '{' :: after) (length : offset = byteLength before)
    (bare : before.getLast? ≠ some '\\') (line : Nat) :
    Splitting.read line ⟨segments, literal, rest⟩ =
      match Interpolation.closingBrace after with
      | none => throw (.unterminatedInterpolation line)
      | some (code, tail) =>
          let known := segments ++ Interpolation.flush (literal ++ before)
          let expression := .expression (String.ofList (Text.trim code))
          Splitting.read line ⟨known ++ [expression], [], tail⟩ := by
  rw [Splitting.read, found]
  dsimp only
  rw [cut_front _ whole length, liftM_some_bind, if_neg bare, cutFrom_marker whole length,
    liftM_some_bind, closingFrom_eq 0 0 none false after fun _ => rfl, liftM_some_bind,
    ← Interpolation.closingBrace]
  cases closed : Interpolation.closingBrace after with
  | none => rfl
  | some p =>
      obtain ⟨code, tail⟩ := p
      have parts : after = code ++ '}' :: tail := Interpolation.closing_append closed
      have brace : byteLength ['}'] = 1 := rfl
      have body : cut after 0 (0 + byteLength code) = some code := by
        apply cut_front _ parts
        rw [Nat.zero_add]
      have behind : cutFrom after (0 + byteLength code + 1) = some tail := by
        apply cutFrom_eq (code ++ ['}'])
        · simp [parts]
        · rw [byteLength_append, brace, Nat.zero_add]
      rw [Option.map_some]
      dsimp only
      rw [body, liftM_some_bind, behind, liftM_some_bind]

end Steps

theorem Splitting.read_agrees (line : Nat) (segments : List Segment) (literal rest : List Char) :
    Agrees Eq (Splitting.read line ⟨segments, literal, rest⟩)
      (orUnterminated line ((Interpolation.splitFrom literal rest).map (segments ++ ·))) := by
  -- The induction is on the length of what is left to read.
  induction count : rest.length using Nat.strongRecOn generalizing segments literal rest with
  | ind n ih =>
      cases found : marker? rest with
      | none =>
          rw [Splitting.read, found, splitFrom_of_marker?_eq_none found]
          exact .ok rfl
      | some offset =>
          obtain ⟨before, after, whole, length, escaped, opens⟩ := splitFrom_of_marker? found
          have shorter : after.length < n := by
            rw [← count, whole]
            simp
            omega
          by_cases last : before.getLast? = some '\\'
          · rw [escaped last literal]
            obtain ⟨start, rfl⟩ := List.getLast?_eq_some_iff.mp last
            rw [Splitting.read_escaped found whole length, List.dropLast_concat]
            exact ih _ shorter _ _ _ rfl
          · rw [opens last literal, splitFrom_marker,
              Splitting.read_opened found whole length last]
            cases closed : Interpolation.closingBrace after with
            | none => exact .error _
            | some p =>
                obtain ⟨code, tail⟩ := p
                have less := Nat.lt_trans (Interpolation.length_closingBrace closed) shorter
                have later := ih _ less (segments ++ Interpolation.flush (literal ++ before) ++
                  [.expression (String.ofList (Text.trim code))]) [] tail rfl
                simpa [Function.comp_def, Option.map_map] using later

/-- The segments of a text are read without a step that is undefined. -/
theorem split_agrees (line : Nat) (text : List Char) :
    Agrees Eq (split line text) (orUnterminated line (Interpolation.split text)) := by
  have whole := Splitting.read_agrees line [] [] text
  simpa [split, Interpolation.split] using whole

end Haml.Offset
