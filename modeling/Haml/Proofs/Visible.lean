import Haml.Render
import Mathlib.Data.List.DropRight
import Mathlib.Data.List.Infix
/-! The visible characters of an output, those that are not white space: no way of writing a text in
lines changes them. -/

namespace Haml

namespace Text

/-- A text without its white space. -/
def visible (cs : List Char) : List Char := cs.filter fun c => !isBlank c

theorem visible_append (cs ds : List Char) : visible (cs ++ ds) = visible cs ++ visible ds :=
  List.filter_append cs ds

theorem visible_cons_of_isBlank {c : Char} (blank : isBlank c = true) (cs : List Char) :
    visible (c :: cs) = visible cs :=
  List.filter_cons_of_neg (by simp [blank])

theorem visible_ne_nil {c : Char} {cs : List Char} (member : c ∈ cs) (seen : isBlank c = false) :
    visible cs ≠ [] := by
  refine List.ne_nil_of_mem (List.mem_filter.mpr ⟨member, ?_⟩)
  rw [seen]
  rfl

theorem visible_dropWhile_isBlank (cs : List Char) : visible (cs.dropWhile isBlank) = visible cs := by
  induction cs with
  | nil => rfl
  | cons c cs ih =>
      by_cases blank : isBlank c = true
      · rw [List.dropWhile_cons_of_pos blank, ih, visible_cons_of_isBlank blank]
      · rw [List.dropWhile_cons_of_neg blank]

theorem trimEnd_eq_rdropWhile (cs : List Char) : trimEnd cs = cs.rdropWhile isBlank := rfl

theorem visible_trimEnd (cs : List Char) : visible (trimEnd cs) = visible cs := by
  have reversed : visible (cs.reverse.dropWhile isBlank) = visible cs.reverse :=
    visible_dropWhile_isBlank cs.reverse
  unfold visible at reversed ⊢
  rw [trimEnd_eq_rdropWhile, List.rdropWhile, List.filter_reverse, reversed, List.filter_reverse,
    List.reverse_reverse]

theorem visible_splitOn (cs : List Char) :
    (cs.splitOn '\n').flatMap visible = visible cs := by
  induction cs with
  | nil => rfl
  | cons c cs ih =>
      by_cases newline : c = '\n'
      · subst newline
        rw [List.splitOn_cons_eq_if_modifyHead, if_pos (beq_self_eq_true _), List.flatMap_cons, ih]
        rfl
      · cases pieces : cs.splitOn '\n' with
        | nil => exact absurd pieces (List.splitOn_ne_nil _ cs)
        | cons piece rest =>
            rw [pieces] at ih
            rw [List.splitOn_cons_eq_if_modifyHead, if_neg (by simpa using newline), pieces,
              List.modifyHead_cons, List.flatMap_cons]
            rw [← List.singleton_append, visible_append, List.append_assoc]
            rw [← List.flatMap_cons (f := visible), ih, ← visible_append]
            rfl

theorem visible_dropNewline (text : List Char) :
    visible ((dropSuffix? ['\n'] text).getD text) = visible text := by
  cases dropped : dropSuffix? ['\n'] text with
  | none => rfl
  | some rest =>
      rw [← List.isSuffixOf?_eq_some_iff_append_eq.mp dropped, visible_append]
      exact (List.append_nil _).symm

end Text

open Text

namespace Buffer

def Seen (b : Buffer) : Prop := visible b.text ≠ []

theorem visible_line (depth : Nat) (text : List Char) (b : Buffer) :
    visible (b.line depth text).text = visible b.text ++ visible text := by
  have indent : visible (if b.glued || text.isEmpty then [] else List.replicate (2 * depth) ' ')
      = [] := by
    split
    · rfl
    · exact List.filter_eq_nil_iff.mpr fun c member => by
        rw [List.eq_of_mem_replicate member]
        decide
  simp only [line, visible_append, indent, List.append_nil]
  exact List.append_nil _

theorem visible_foldl_line (depth : Nat) (pieces : List (List Char)) (b : Buffer) :
    visible (pieces.foldl (fun b piece => b.line depth piece) b).text =
      visible b.text ++ pieces.flatMap visible := by
  induction pieces generalizing b with
  | nil => simp
  | cons piece rest ih =>
      rw [List.foldl_cons, ih, visible_line, List.flatMap_cons, List.append_assoc]

theorem visible_lines (depth : Nat) (text : List Char) (b : Buffer) :
    visible (b.lines depth text).text = visible b.text ++ visible text := by
  rw [← visible_dropNewline text, lines]
  generalize (dropSuffix? ['\n'] text).getD text = body
  split
  · next empty =>
      rw [List.isEmpty_iff.mp empty]
      exact (List.append_nil _).symm
  · rw [visible_foldl_line, visible_splitOn]

end Buffer

namespace Render

theorem visible_glueIf (trim : Bool) (b : Buffer) :
    visible (glueIf trim b).text = visible b.text := by
  cases trim with
  | true => exact visible_trimEnd b.text
  | false => rfl

def elementText (settings : RenderSettings) (name : String) (opened : List Char) :
    Option (List Char) → List Char
  | none => opened ++ (if settings.html then ['>'] else " />".toList)
  | some inner => opened ++ ['>'] ++ inner ++ endTag name

theorem visible_writeElement (settings : RenderSettings) (depth : Nat) (tag : CompiledTag)
    (opened : List Char) (inner : Option (List Char)) (b : Buffer) :
    visible (writeElement settings depth tag opened inner b).text =
      visible b.text ++ visible (elementText settings tag.name opened inner) := by
  cases inner with
  | none => exact Buffer.visible_line depth _ b
  | some inner =>
      rw [writeElement]
      split
      · simp only [Buffer.visible_line, Buffer.visible_lines, elementText, visible_append,
          List.append_assoc]
      · exact Buffer.visible_line depth _ b

end Render

end Haml
