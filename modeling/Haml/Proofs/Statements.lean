import Haml.Proofs.OneLine
import Haml.Proofs.Segments
import Haml.Proofs.Trimmed
import Haml.Statement
/-! Statements as they are written: the texts that script lines are written in, and what is read from
each of them, whatever its operands hold. -/

namespace Haml

namespace Text

theorem head?_trim (cs : List Char) : ∀ c ∈ (trim cs).head?, isBlank c = false := by
  intro c first
  have same : trim cs = trimStart (trimEnd cs) := (trimStart_trimEnd cs).symm
  rw [same, trimStart] at first
  have seen := List.head?_dropWhile_not isBlank (trimEnd cs)
  rw [first] at seen
  exact seen

theorem trim_eq_self {cs : List Char} (first : ∀ c ∈ cs.head?, isBlank c = false)
    (last : ∀ c ∈ cs.getLast?, isBlank c = false) : trim cs = cs := by
  have start : trimStart cs = cs := by
    cases cs with
    | nil => rfl
    | cons c cs =>
        refine List.dropWhile_cons_of_neg ?_
        rw [first c rfl]
        exact Bool.false_ne_true
  rw [trim, start, trimEnd_of_getLast? last]

theorem trim_append_of_blank {lead : List Char} (blank : allBlank lead = true) (cs : List Char) :
    trim (lead ++ cs) = trim cs := by
  rw [trim, trimStart, List.dropWhile_append_of_pos (List.all_eq_true.mp blank), trim, trimStart]

theorem trimEnd_append_of_blank {trail : List Char} (blank : allBlank trail = true)
    (cs : List Char) : trimEnd (cs ++ trail) = trimEnd cs := by
  have reversed : ∀ c ∈ trail.reverse, isBlank c = true := fun c member =>
    List.all_eq_true.mp blank c (List.mem_reverse.mp member)
  simp only [Text.trimEnd_eq_rdropWhile, List.rdropWhile]
  rw [List.reverse_append, List.dropWhile_append_of_pos reversed]

theorem mem_trim {c : Char} {cs : List Char} (seen : isBlank c = false) (member : c ∈ cs) :
    c ∈ trim cs := by
  have start {cs : List Char} (member : c ∈ cs) : c ∈ cs.dropWhile isBlank := by
    rw [← List.takeWhile_append_dropWhile (p := isBlank) (l := cs)] at member
    obtain blank | kept := List.mem_append.mp member
    · rw [List.mem_takeWhile_imp blank] at seen
      cases seen
    · exact kept
  exact List.mem_reverse.mpr (start (List.mem_reverse.mpr (start member)))

theorem trim_between {lead trail : List Char} (before : allBlank lead = true)
    (after : allBlank trail = true) (cs : List Char) : trim (lead ++ cs ++ trail) = trim cs := by
  rw [← trim_trimEnd, trimEnd_append_of_blank after, trim_trimEnd, trim_append_of_blank before]

theorem trimEnd_append_cons {c : Char} (seen : isBlank c = false) (front rest : List Char) :
    trimEnd (front ++ c :: rest) = front ++ c :: trimEnd rest := by
  have kept := trimEnd_cons_of_visible seen rest
  have filled : trimEnd (c :: rest) ≠ [] := by
    rw [kept]
    exact List.cons_ne_nil _ _
  rw [trimEnd_append_of_filled filled, kept]

theorem trim_cons_of_visible {c : Char} (seen : isBlank c = false) (rest : List Char) :
    trim (c :: rest) = c :: trimEnd rest := by
  rw [trim, trimStart, List.dropWhile_cons_of_neg (by simp [seen]), trimEnd_cons_of_visible seen]

theorem splitOnce_append_self {sep : List Char} (filled : sep ≠ []) (rest : List Char) :
    splitOnce sep (sep ++ rest) = some ([], rest) := by
  have found : sep.isPrefixOf? (sep ++ rest) = some rest :=
    List.isPrefixOf?_eq_some_iff_append_eq.mpr rfl
  cases sep with
  | nil => exact absurd rfl filled
  | cons c sep =>
      rw [List.cons_append] at found ⊢
      rw [splitOnce, found]

theorem splitOnce_append_of_not_mem {c : Char} {cs : List Char} (free : c ∉ cs)
    (sep rest : List Char) :
    splitOnce (c :: sep) (cs ++ rest) =
      (splitOnce (c :: sep) rest).map fun (before, after) => (cs ++ before, after) := by
  induction cs with
  | nil => simp
  | cons d cs ih =>
      obtain ⟨here, later⟩ := not_or.mp (mt List.mem_cons.mpr free)
      rw [List.cons_append, splitOnce, List.isPrefixOf?, beq_eq_false_iff_ne.mpr here]
      simp only [Bool.false_eq_true, if_false, ih later, Option.map_map]
      rfl

end Text

namespace Statement

open Text (isBlank trim trimEnd allBlank splitOnce)

section Operands

/-- A text that a statement is about: trimmed, not empty, and with no colon at its end. -/
structure IsOperand (cs : List Char) : Prop where
  trimmed : trim cs = cs
  filled : cs ≠ []
  unclosed : cs.getLast? ≠ some ':'

theorem IsOperand.cons {c : Char} {cs : List Char} (operand : IsOperand cs)
    (seen : isBlank c = false) (front : List Char) : IsOperand (c :: (front ++ cs)) := by
  have last : (c :: (front ++ cs)).getLast? = cs.getLast? := by
    rw [← List.cons_append]
    exact List.getLast?_append_of_ne_nil _ operand.filled
  refine ⟨Text.trim_eq_self ?_ ?_, List.cons_ne_nil _ _, ?_⟩
  · rintro d ⟨⟩
    exact seen
  · rw [last, ← operand.trimmed]
    exact Text.getLast?_trimEnd _
  · rw [last]
    exact operand.unclosed

inductive IsClosing : List Char → Prop
  | none : IsClosing []
  | colon {gap : List Char} : allBlank gap = true → IsClosing (gap ++ [':'])

variable {code closing : List Char}

theorem IsOperand.dropColon_append (operand : IsOperand code) (closes : IsClosing closing) :
    dropColon (code ++ closing) = code := by
  have whole : trimEnd code = code := by
    refine Text.trimEnd_of_getLast? ?_
    rw [← operand.trimmed]
    exact Text.getLast?_trimEnd _
  cases closes with
  | none =>
      rw [List.append_nil, dropColon, Text.dropSuffix?_singleton operand.unclosed]
      exact whole
  | @colon gap blank =>
      rw [← List.append_assoc, dropColon, Text.dropSuffix?_append, Option.getD_some,
        Text.trimEnd_append_of_blank blank, whole]

theorem IsOperand.trim_append (operand : IsOperand code) (closes : IsClosing closing) :
    trim (code ++ closing) = code ++ closing := by
  cases closes with
  | none => rw [List.append_nil, operand.trimmed]
  | @colon gap blank =>
      refine Text.trim_eq_self ?_ ?_
      · intro c first
        rw [List.head?_append_of_ne_nil _ operand.filled, ← operand.trimmed] at first
        exact Text.head?_trim code c first
      · rw [← List.append_assoc, List.getLast?_concat]
        rintro c ⟨⟩
        rfl

end Operands

section Identifiers

variable {name : List Char}

theorem isBlank_of_isIdentifierChar {c : Char} (part : isIdentifierChar c = true) :
    isBlank c = false := by
  rw [← Bool.not_eq_true]
  intro blank
  simp only [isBlank, Bool.or_eq_true, Bool.and_eq_true, decide_eq_true_eq, beq_iff_eq,
    Char.toNat] at blank
  obtain alphanumeric | underscore := Bool.or_eq_true_iff.mp part
  · obtain letter | digit := Bool.or_eq_true_iff.mp alphanumeric
    · obtain upper | lower := Bool.or_eq_true_iff.mp letter
      · have within : 65 ≤ c.val.toNat ∧ c.val.toNat ≤ 90 := of_decide_eq_true upper
        omega
      · obtain ⟨low, high⟩ := Bool.and_eq_true_iff.mp lower
        have least : 97 ≤ c.val.toNat := of_decide_eq_true low
        have most : c.val.toNat ≤ 122 := of_decide_eq_true high
        omega
    · obtain ⟨low, high⟩ := Bool.and_eq_true_iff.mp digit
      have least : 48 ≤ c.val.toNat := of_decide_eq_true low
      have most : c.val.toNat ≤ 57 := of_decide_eq_true high
      omega
  · obtain rfl := eq_of_beq underscore
    exact absurd blank (by decide)

theorem isIdentifierChar_of_mem (named : isIdentifier name = true) :
    ∀ c ∈ name, isIdentifierChar c = true := by
  cases name with
  | nil => exact nofun
  | cons c name =>
      obtain ⟨start, rest⟩ := Bool.and_eq_true_iff.mp named
      refine List.forall_mem_cons.mpr ⟨?_, List.all_eq_true.mp rest⟩
      obtain letter | underscore := Bool.or_eq_true_iff.mp start
      · simp [isIdentifierChar, Char.isAlphanum, letter]
      · simp [isIdentifierChar, underscore]

theorem not_mem_of_isIdentifier (named : isIdentifier name = true) {c : Char}
    (other : isIdentifierChar c = false) : c ∉ name := by
  intro member
  rw [isIdentifierChar_of_mem named c member] at other
  cases other

theorem isBlank_of_isIdentifier (named : isIdentifier name = true) :
    ∀ c ∈ name, isBlank c = false := fun c member =>
  isBlank_of_isIdentifierChar (isIdentifierChar_of_mem named c member)

theorem isIdentifier_ne_nil (named : isIdentifier name = true) : name ≠ [] := by
  rintro rfl
  cases named

theorem trim_of_isIdentifier (named : isIdentifier name = true) : trim name = name :=
  Text.trim_eq_self
    (fun c first => isBlank_of_isIdentifier named c (List.mem_of_mem_head? first))
    (fun c last => isBlank_of_isIdentifier named c (List.mem_of_mem_getLast? last))

theorem equals_not_mem {gap : List Char} (named : isIdentifier name = true)
    (blank : allBlank gap = true) : '=' ∉ name ++ gap := by
  intro member
  obtain inside | inside := List.mem_append.mp member
  · exact not_mem_of_isIdentifier named (by decide) inside
  · cases List.all_eq_true.mp blank '=' inside

theorem isIdentifier_of_mem {c : Char} (member : c ∈ name) (other : isIdentifierChar c = false) :
    isIdentifier name = false :=
  Bool.eq_false_iff.mpr fun named => not_mem_of_isIdentifier named other member

end Identifiers

section Keywords

variable {keyword rest code : List Char} {s : Statement}

/-- What a line opens with is its first word, and the rest is read without the white space
around it. -/
theorem readChars_eq {tail : List Char} (bare : dropColon code = keyword ++ tail)
    (whole : ∀ c ∈ keyword, isBlank c = false) (apart : ∀ c ∈ tail.head?, isBlank c = true) :
    readChars code = (keyword? keyword (trim tail)).getD
      ((assignment? code).getD (.expression (String.ofList code))) := by
  have inside : ∀ c ∈ keyword, (!isBlank c) = true := by
    intro c member
    rw [whole c member]
    rfl
  have taken : (keyword ++ tail).takeWhile (fun c => !isBlank c) = keyword ∧
      (keyword ++ tail).dropWhile (fun c => !isBlank c) = tail := by
    rw [List.takeWhile_append_of_pos inside, List.dropWhile_append_of_pos inside]
    cases tail with
    | nil => simp
    | cons c tail => simp [apart c rfl]
  rw [readChars, bare]
  simp only [taken]

theorem keyword?_known (known : keyword? keyword rest = some s) :
    String.ofList keyword ∈ ["if", "unless", "elif", "elsif", "else", "end", "endif", "endfor",
      "endunless", "for", "set"] := by
  unfold keyword? at known
  split at known
  all_goals first | (next same => rw [same]; decide) | cases known

theorem keyword?_of_sign (signed : '=' ∈ keyword) (rest : List Char) :
    keyword? keyword rest = none := by
  rw [Option.eq_none_iff_forall_ne_some]
  intro s known
  have free : ∀ text ∈ ["if", "unless", "elif", "elsif", "else", "end", "endif", "endfor",
      "endunless", "for", "set"], '=' ∉ text.toList := by decide
  exact free _ (keyword?_known known) (by rwa [String.toList_ofList])

end Keywords

section Assignments

theorem assignment?_append (free : '=' ∉ before) (value : List Char) :
    assignment? (before ++ '=' :: value) =
      if value.head? ≠ some '=' ∧ isIdentifier (trim before) = true then
        some (.assign (String.ofList (trim before)) (String.ofList (trim value)))
      else none := by
  have inside : ∀ c ∈ before, (c != '=') = true := by
    intro c member
    refine bne_iff_ne.mpr ?_
    rintro rfl
    exact free member
  rw [assignment?, List.takeWhile_append_of_pos inside, List.dropWhile_append_of_pos inside]
  cases value with
  | nil => simp
  | cons c value =>
      by_cases double : c = '='
      · subst double
        simp
      · simp [double]

theorem apart_of_compares {c : Char} (compares : c ∈ "=!<>".toList) :
    isBlank c = false ∧ isIdentifierChar c = false := by
  simp only [String.reduceToList, List.mem_cons, List.not_mem_nil, or_false] at compares
  obtain rfl | rfl | rfl | rfl := compares
  · exact ⟨rfl, rfl⟩
  · exact ⟨rfl, rfl⟩
  · exact ⟨rfl, rfl⟩
  · exact ⟨rfl, rfl⟩

/-- What stands before the equals sign of a comparison is no name, or a second one follows. -/
theorem assignment?_comparison {c : Char} (free : '=' ∉ before) (compares : c ∈ "=!<>".toList)
    (rest : List Char) : assignment? (before ++ [c] ++ '=' :: rest) = none := by
  by_cases double : c = '='
  · have split : before ++ [c] ++ '=' :: rest = before ++ '=' :: '=' :: rest := by simp [double]
    rw [split, assignment?_append free]
    exact if_neg fun both => both.1 rfl
  · have apart := apart_of_compares compares
    have within : '=' ∉ before ++ [c] := by simp [free, Ne.symm double]
    have kept : c ∈ trim (before ++ [c]) := Text.mem_trim apart.1 (by simp)
    rw [assignment?_append within, isIdentifier_of_mem kept apart.2]
    exact if_neg fun both => Bool.false_ne_true both.2

end Assignments

section Loops

variable {name items : List Char} {targets : List (List Char)}

theorem isPrefixOf?_in (named : isIdentifier name = true) (other : name ≠ "in".toList)
    {rest : List Char} (apart : ∀ c ∈ rest.head?, isIdentifierChar c = false) :
    " in ".toList.isPrefixOf? (' ' :: (name ++ rest)) = none := by
  rw [Option.eq_none_iff_forall_ne_some]
  intro after found
  have whole := List.isPrefixOf?_eq_some_iff_append_eq.mp found
  have same : 'i' :: 'n' :: ' ' :: after = name ++ rest := (List.cons.inj whole).2
  have taken : (name ++ rest).takeWhile isIdentifierChar = name := by
    rw [List.takeWhile_append_of_pos (isIdentifierChar_of_mem named)]
    cases rest with
    | nil => simp
    | cons c rest => simp [apart c rfl]
  rw [← same] at taken
  exact other taken.symm

theorem intercalate_starts (name : List Char) (targets : List (List Char)) :
    ∃ after, List.intercalate ", ".toList (name :: targets) = name ++ after ∧
      ∀ c ∈ after.head?, isIdentifierChar c = false := by
  cases targets with
  | nil => exact ⟨[], by simp, nofun⟩
  | cons next targets =>
      refine ⟨", ".toList ++ List.intercalate ", ".toList (next :: targets), ?_, ?_⟩
      · rw [List.intercalate_cons_cons, List.append_assoc]
      · rintro c ⟨⟩
        rfl

theorem splitOnce_in (filled : targets ≠ [])
    (named : ∀ name ∈ targets, isIdentifier name = true ∧ name ≠ "in".toList) (items : List Char) :
    splitOnce " in ".toList (List.intercalate ", ".toList targets ++ " in ".toList ++ items) =
      some (List.intercalate ", ".toList targets, items) := by
  induction targets with
  | nil => exact absurd rfl filled
  | cons name targets ih =>
      obtain ⟨⟨here, _⟩, others⟩ := List.forall_mem_cons.mp named
      have free : ' ' ∉ name := not_mem_of_isIdentifier here (by decide)
      have cut : " in ".toList = ' ' :: "in ".toList := rfl
      cases targets with
      | nil =>
          rw [List.intercalate_singleton, List.append_assoc, cut,
            Text.splitOnce_append_of_not_mem free, ← cut, Text.splitOnce_append_self (by decide)]
          simp
      | cons next targets =>
          have rest := ih (List.cons_ne_nil next targets) others
          obtain ⟨named, other⟩ := others next (List.mem_cons_self ..)
          have comma : ' ' ∉ name ++ [','] := by simp [free]
          have split :
              List.intercalate ", ".toList (name :: next :: targets) ++ " in ".toList ++ items =
                name ++ [','] ++ ' ' ::
                  (List.intercalate ", ".toList (next :: targets) ++ " in ".toList ++ items) := by
            rw [List.intercalate_cons_cons]
            simp
          obtain ⟨after, front, apart⟩ := intercalate_starts next targets
          have passed : " in ".toList.isPrefixOf? (' ' ::
              (List.intercalate ", ".toList (next :: targets) ++ " in ".toList ++ items)) = none := by
            rw [front, List.append_assoc, List.append_assoc]
            refine isPrefixOf?_in named other fun c first => ?_
            cases after with
            | nil =>
                cases first
                rfl
            | cons d after =>
                cases first
                exact apart _ rfl
          rw [split, cut, Text.splitOnce_append_of_not_mem comma, ← cut, splitOnce, passed]
          simp only [rest]
          rw [List.intercalate_cons_cons]
          simp

theorem map_trim_splitOn (filled : targets ≠ [])
    (named : ∀ name ∈ targets, isIdentifier name = true) :
    ((List.intercalate ", ".toList targets).splitOn ',').map trim = targets := by
  induction targets with
  | nil => exact absurd rfl filled
  | cons name targets ih =>
      obtain ⟨here, others⟩ := List.forall_mem_cons.mp named
      have whole : ',' ∉ name := not_mem_of_isIdentifier here (by decide)
      cases targets with
      | nil =>
          rw [List.intercalate_singleton, List.splitOn_eq_singleton whole,
            List.map_singleton, trim_of_isIdentifier here]
      | cons next targets =>
          have rest := ih (List.cons_ne_nil next targets) others
          have split : List.intercalate ", ".toList (name :: next :: targets) =
              name ++ ',' :: ' ' :: List.intercalate ", ".toList (next :: targets) := by
            rw [List.intercalate_cons_cons]
            simp
          rw [split, List.splitOn_append_cons_self_of_not_mem whole, List.map_cons,
            trim_of_isIdentifier here, List.splitOn_cons_eq_if_modifyHead]
          generalize (List.intercalate ", ".toList (next :: targets)).splitOn ',' = pieces at rest ⊢
          cases pieces with
          | nil => cases rest
          | cons piece pieces =>
              rw [List.map_cons] at rest
              rw [if_neg (by decide), List.modifyHead, List.map_cons,
                Text.trim_cons_of_isBlank rfl, rest]

theorem IsOperand.loop (operand : IsOperand items) (filled : targets ≠ [])
    (named : ∀ name ∈ targets, isIdentifier name = true) :
    IsOperand (List.intercalate ", ".toList targets ++ " in ".toList ++ items) := by
  cases targets with
  | nil => exact absurd rfl filled
  | cons name targets =>
      have here := named name (List.mem_cons_self ..)
      obtain ⟨after, front, _⟩ := intercalate_starts name targets
      cases name with
      | nil => cases here
      | cons c name =>
          have seen := isBlank_of_isIdentifier here c (List.mem_cons_self ..)
          rw [front]
          exact operand.cons seen (name ++ after ++ " in ".toList)

theorem loop?_intercalate (operand : IsOperand items) (filled : targets ≠ [])
    (named : ∀ name ∈ targets, isIdentifier name = true ∧ name ≠ "in".toList) :
    loop? (List.intercalate ", ".toList targets ++ " in ".toList ++ items) =
      some (.each (targets.map String.ofList) (String.ofList items)) := by
  have names : ∀ name ∈ targets, isIdentifier name = true := fun name member =>
    (named name member).1
  rw [loop?, splitOnce_in filled named]
  simp only [map_trim_splitOn filled names, List.all_eq_true.mpr names, operand.trimmed, if_true]

end Loops

section Written

variable {code name value : List Char}

/-- The texts that give a name a value: an equals sign between them, with white space around it or
without. -/
structure Assigns (code name value : List Char) : Prop where
  named : isIdentifier name = true
  operand : IsOperand value
  single : value.head? ≠ some '='
  written : ∃ gap gap', allBlank gap = true ∧ allBlank gap' = true ∧
    code = name ++ gap ++ '=' :: (gap' ++ value)

/-- The statements that a keyword opens, and the texts they are written in. -/
inductive Written : List Char → Statement → Prop
  | ifTrue {condition : List Char} : IsOperand condition →
      Written ("if ".toList ++ condition) (.ifTrue (String.ofList condition))
  | ifFalse {condition : List Char} : IsOperand condition →
      Written ("unless ".toList ++ condition) (.ifFalse (String.ofList condition))
  | elseIf {keyword : String} {condition : List Char} : keyword ∈ ["elif ", "elsif ", "else if "] →
      IsOperand condition →
      Written (keyword.toList ++ condition) (.elseIf (String.ofList condition))
  | otherwise : Written "else".toList .otherwise
  | each {targets : List (List Char)} {items : List Char} : targets ≠ [] →
      (∀ name ∈ targets, isIdentifier name = true ∧ name ≠ "in".toList) → IsOperand items →
      Written ("for ".toList ++ (List.intercalate ", ".toList targets ++ " in ".toList ++ items))
        (.each (targets.map String.ofList) (String.ofList items))
  | set {code name value : List Char} : Assigns code name value →
      Written ("set ".toList ++ code) (.assign (String.ofList name) (String.ofList value))

theorem Assigns.isOperand (assigns : Assigns code name value) : IsOperand code := by
  obtain ⟨gap, gap', _, _, rfl⟩ := assigns.written
  have seen := isBlank_of_isIdentifier assigns.named
  have filled := isIdentifier_ne_nil assigns.named
  cases name with
  | nil => exact absurd rfl filled
  | cons c name =>
      have whole : c :: name ++ gap ++ '=' :: (gap' ++ value) =
          c :: (name ++ gap ++ '=' :: gap' ++ value) := by simp
      rw [whole]
      exact assigns.operand.cons (seen c (List.mem_cons_self ..)) _

theorem Assigns.assignment?_eq (assigns : Assigns code name value) :
    assignment? code = some (.assign (String.ofList name) (String.ofList value)) := by
  obtain ⟨gap, gap', blank, blank', rfl⟩ := assigns.written
  have free := equals_not_mem assigns.named blank
  have single : (gap' ++ value).head? ≠ some '=' := by
    cases gap' with
    | nil => exact assigns.single
    | cons c gap' =>
        rintro ⟨⟩
        cases blank'
  have front : trim (name ++ gap) = name := by
    rw [← Text.trim_trimEnd, Text.trimEnd_append_of_blank blank, Text.trim_trimEnd,
      trim_of_isIdentifier assigns.named]
  have back : trim (gap' ++ value) = value := by
    rw [Text.trim_append_of_blank blank', assigns.operand.trimmed]
  rw [assignment?_append free, front, back, if_pos ⟨single, assigns.named⟩]

def Opens (code : List Char) (s : Statement) : Prop :=
  IsOperand code ∧ ∃ keyword tail, code = keyword ++ tail ∧ (∀ c ∈ keyword, isBlank c = false) ∧
    (∀ c ∈ tail.head?, isBlank c = true) ∧ keyword? keyword (trim tail) = some s

theorem IsOperand.opens {rest : List Char} {s : Statement} (operand : IsOperand rest)
    (keyword : List Char) (known : keyword? keyword rest = some s)
    (whole : ∀ c ∈ keyword, isBlank c = false) (filled : keyword ≠ []) :
    Opens (keyword ++ ' ' :: rest) s := by
  refine ⟨?_, keyword, ' ' :: rest, rfl, whole, ?_, ?_⟩
  · cases keyword with
    | nil => exact absurd rfl filled
    | cons c keyword =>
        have split : c :: keyword ++ ' ' :: rest = c :: ((keyword ++ [' ']) ++ rest) := by simp
        rw [split]
        exact operand.cons (whole c (List.mem_cons_self ..)) _
  · rintro c ⟨⟩
    rfl
  · rw [Text.trim_cons_of_isBlank rfl, operand.trimmed, known]

theorem isBlank_of_all {cs : List Char} (all : (cs.all fun c => !isBlank c) = true) :
    ∀ c ∈ cs, isBlank c = false := by
  intro c member
  simpa using List.all_eq_true.mp all c member

theorem IsOperand.isEmpty {cs : List Char} (operand : IsOperand cs) : ¬ cs.isEmpty = true :=
  fun empty => operand.filled (List.isEmpty_iff.mp empty)

theorem IsOperand.keyword?_else {condition : List Char} (operand : IsOperand condition) :
    keyword? "else".toList ("if ".toList ++ condition) =
      some (.elseIf (String.ofList condition)) := by
  have read : keyword? "else".toList ("if ".toList ++ condition) =
      some (.elseIf (String.ofList (trim condition))) := rfl
  rw [read, operand.trimmed]

theorem Written.opens {s : Statement} (written : Written code s) : Opens code s := by
  cases written with
  | ifTrue operand =>
      exact operand.opens "if".toList (if_neg operand.isEmpty) (isBlank_of_all rfl) (by decide)
  | ifFalse operand =>
      exact operand.opens "unless".toList (if_neg operand.isEmpty) (isBlank_of_all rfl) (by decide)
  | elseIf known operand =>
      simp only [List.mem_cons, List.not_mem_nil, or_false] at known
      obtain rfl | rfl | rfl := known
      · exact operand.opens "elif".toList (if_neg operand.isEmpty) (isBlank_of_all rfl) (by decide)
      · exact operand.opens "elsif".toList (if_neg operand.isEmpty) (isBlank_of_all rfl) (by decide)
      · have rest := operand.cons (rfl : isBlank 'i' = false) ['f', ' ']
        exact rest.opens "else".toList operand.keyword?_else (isBlank_of_all rfl) (by decide)
  | otherwise =>
      have operand : IsOperand "else".toList := ⟨by decide, by decide, by decide⟩
      exact ⟨operand, "else".toList, [], rfl, isBlank_of_all rfl, nofun, rfl⟩
  | each filled named operand =>
      have rest := operand.loop filled fun name member => (named name member).1
      exact rest.opens "for".toList (loop?_intercalate operand filled named) (isBlank_of_all rfl)
        (by decide)
  | set assigns =>
      exact assigns.isOperand.opens "set".toList assigns.assignment?_eq (isBlank_of_all rfl)
        (by decide)

/-- What a statement is written in is read as the statement, whatever white space is around it and
whether a colon closes it or not. -/
theorem Written.read_eq {s : Statement} (written : Written code s) {lead closing trail : List Char}
    (before : allBlank lead = true) (closes : IsClosing closing) (after : allBlank trail = true) :
    read (String.ofList (lead ++ (code ++ closing) ++ trail)) = s := by
  obtain ⟨operand, keyword, tail, split, whole, apart, known⟩ := written.opens
  rw [read, String.toList_ofList, Text.trim_between before after, operand.trim_append closes]
  rw [readChars_eq ((operand.dropColon_append closes).trans split) whole apart, known,
    Option.getD_some]

end Written

section Signs

variable {keyword rest : List Char}

def conditionals : List (List Char) := ["if", "unless", "elif", "elsif"].map String.toList

theorem loop?_equals (rest : List Char) : loop? ('=' :: rest) = none := by
  unfold loop?
  split
  · rfl
  · next targets items cut =>
      have whole := Text.splitOnce_append cut
      cases targets with
      | nil => cases whole
      | cons c targets =>
          obtain rfl : '=' = c := (List.cons.inj whole).1
          refine if_neg fun named => ?_
          obtain ⟨first, others, split⟩ : ∃ first others,
              ('=' :: targets).splitOn ',' = ('=' :: first) :: others := by
            rw [List.splitOn_cons_eq_if_modifyHead, if_neg (by decide)]
            cases pieces : targets.splitOn ',' with
            | nil => exact absurd pieces (List.splitOn_ne_nil _ _)
            | cons first others => exact ⟨first, others, rfl⟩
          rw [split, List.map_cons, List.all_cons] at named
          have kept : '=' ∈ trim ('=' :: first) := Text.mem_trim rfl (List.mem_cons_self ..)
          rw [isIdentifier_of_mem kept rfl] at named
          cases named

theorem keyword?_equals (other : keyword ∉ conditionals) (rest : List Char) :
    keyword? keyword ('=' :: rest) = none := by
  have unlike (word : String) (member : word.toList ∈ conditionals) :
      String.ofList keyword ≠ word := by
    rintro rfl
    exact other (by rwa [String.toList_ofList] at member)
  unfold keyword?
  split
  · next same => exact absurd same (unlike "if" (by decide))
  · next same => exact absurd same (unlike "unless" (by decide))
  · next same => exact absurd same (unlike "elif" (by decide))
  · next same => exact absurd same (unlike "elsif" (by decide))
  · rfl
  · rfl
  · rfl
  · rfl
  · rfl
  · exact loop?_equals rest
  · exact (assignment?_append List.not_mem_nil rest).trans
      (if_neg fun both => Bool.false_ne_true both.2)
  · rfl

theorem keyword?_assign {name value : String}
    (known : keyword? keyword rest = some (.assign name value)) :
    assignment? rest = some (.assign name value) := by
  unfold keyword? at known
  split at known
  · split at known <;> cases known
  · split at known <;> cases known
  · split at known <;> cases known
  · split at known <;> cases known
  · split at known
    · cases known
    · obtain ⟨_, _, same⟩ := Option.map_eq_some_iff.mp known
      cases same
  · split at known <;> cases known
  · split at known <;> cases known
  · split at known <;> cases known
  · split at known <;> cases known
  · simp only [loop?] at known
    split at known
    · cases known
    · split at known <;> cases known
  · exact known
  · cases known

variable {name gap code : List Char} {c : Char}

/-- A line that opens with a name and a sign: what is read as its keyword holds the sign if no white
space is between them, and is the name alone if there is. -/
theorem readChars_of_sign {front rest : List Char} (named : isIdentifier name = true)
    (blank : allBlank gap = true) (seen : ∀ c ∈ front, isBlank c = false)
    (bare : dropColon code = name ++ gap ++ front ++ '=' :: rest) :
    ∃ word tail, readChars code = (keyword? word tail).getD
        ((assignment? code).getD (.expression (String.ofList code))) ∧
      ('=' ∈ word ∨ word = name ∧ ∃ kept, tail = front ++ '=' :: kept) := by
  have whole := isBlank_of_isIdentifier named
  cases gap with
  | nil =>
      let word := rest.takeWhile fun c => !isBlank c
      let tail := rest.dropWhile fun c => !isBlank c
      have split : dropColon code = name ++ front ++ '=' :: word ++ tail := by
        rw [bare, List.append_assoc _ ('=' :: word), List.cons_append,
          List.takeWhile_append_dropWhile, List.append_nil]
      refine ⟨name ++ front ++ '=' :: word, trim tail, readChars_eq split ?_ ?_, .inl (by simp)⟩
      · refine List.forall_mem_append.mpr ⟨List.forall_mem_append.mpr ⟨whole, seen⟩,
          List.forall_mem_cons.mpr ⟨rfl, fun c member => ?_⟩⟩
        simpa using List.mem_takeWhile_imp member
      · intro c first
        have stop := List.head?_dropWhile_not (fun c => !isBlank c) rest
        rw [first] at stop
        simpa using stop
  | cons d gap =>
      have split : dropColon code = name ++ (d :: gap ++ (front ++ '=' :: rest)) := by
        rw [bare]
        simp
      have space : isBlank d = true := List.all_eq_true.mp blank d (List.mem_cons_self ..)
      refine ⟨name, _, readChars_eq split whole ?_, .inr ⟨rfl, Text.trimEnd rest, ?_⟩⟩
      · rintro c ⟨⟩
        exact space
      · rw [Text.trim_append_of_blank blank]
        cases front with
        | nil => exact Text.trim_cons_of_visible rfl rest
        | cons c front =>
            rw [List.cons_append, Text.trim_cons_of_visible (seen c (List.mem_cons_self ..)),
              Text.trimEnd_append_cons rfl]
            rfl

/-- A name that is given a value is read as such unless it is a keyword that takes what follows it as
a condition. -/
theorem Assigns.read_eq {value lead trail : List Char} (assigns : Assigns code name value)
    (other : name ∉ conditionals) (before : allBlank lead = true) (after : allBlank trail = true) :
    read (String.ofList (lead ++ code ++ trail)) =
      .assign (String.ofList name) (String.ofList value) := by
  have operand := assigns.isOperand
  have given := assigns.assignment?_eq
  rw [read, String.toList_ofList, Text.trim_between before after, operand.trimmed]
  have whole := operand.dropColon_append .none
  rw [List.append_nil] at whole
  obtain ⟨gap, gap', blank, _, rfl⟩ := assigns.written
  have bare := whole.trans (congrArg (· ++ '=' :: (gap' ++ value)) (List.append_nil _).symm)
  obtain ⟨word, tail, result, held | ⟨rfl, kept, rfl⟩⟩ :=
    readChars_of_sign assigns.named blank (List.forall_mem_nil _) bare
  · rw [result, keyword?_of_sign held, given]
    rfl
  · rw [result, List.nil_append, keyword?_equals other, given]
    rfl

theorem dropColon_append_cons {c : Char} (seen : isBlank c = false) (other : c ≠ ':')
    (front rest : List Char) :
    ∃ kept, dropColon (front ++ c :: rest) = front ++ c :: kept := by
  rw [dropColon]
  by_cases closed : (front ++ c :: rest).getLast? = some ':'
  · cases rest using List.reverseRecOn with
    | nil =>
        rw [List.getLast?_concat] at closed
        exact absurd (Option.some.inj closed) other
    | append_singleton rest d _ =>
        have split : front ++ c :: (rest ++ [d]) = front ++ c :: rest ++ [d] := by simp
        rw [split, List.getLast?_concat] at closed
        obtain rfl := Option.some.inj closed
        rw [split, Text.dropSuffix?_append]
        exact ⟨_, Text.trimEnd_append_cons seen front rest⟩
  · rw [Text.dropSuffix?_singleton closed]
    exact ⟨_, Text.trimEnd_append_cons seen front rest⟩

/-- A name that is compared is not read as one that is given a value. -/
theorem read_comparison {rest lead trail : List Char} (named : isIdentifier name = true)
    (blank : allBlank gap = true) (compares : c ∈ "=!<>".toList) (before : allBlank lead = true)
    (after : allBlank trail = true) (n v : String) :
    read (String.ofList (lead ++ (name ++ gap ++ [c, '='] ++ rest) ++ trail)) ≠ .assign n v := by
  have shown := isBlank_of_isIdentifier named
  have filled := isIdentifier_ne_nil named
  have free := equals_not_mem named blank
  have seen := (apart_of_compares compares).1
  have kept : trim (name ++ gap ++ [c, '='] ++ rest) =
      name ++ gap ++ [c] ++ '=' :: trimEnd rest := by
    cases name with
    | nil => exact absurd rfl filled
    | cons d name =>
        have split : d :: name ++ gap ++ [c, '='] ++ rest =
            d :: (name ++ gap ++ [c] ++ '=' :: rest) := by simp
        rw [split, Text.trim_cons_of_visible (shown d (List.mem_cons_self ..)),
          Text.trimEnd_append_cons rfl]
        rfl
  rw [read, String.toList_ofList, Text.trim_between before after, kept]
  obtain ⟨others, bare⟩ :=
    dropColon_append_cons (c := '=') rfl (by decide) (name ++ gap ++ [c]) (trimEnd rest)
  obtain ⟨word, tail, result, held | ⟨rfl, kept, rfl⟩⟩ :=
    readChars_of_sign named blank (by simpa using seen) bare
  · rw [result, keyword?_of_sign held, assignment?_comparison free compares]
    exact nofun
  · rw [result, assignment?_comparison free compares]
    intro same
    cases known : keyword? word ([c] ++ '=' :: kept) with
    | none =>
        rw [known] at same
        cases same
    | some s =>
        rw [known] at same
        cases same
        have compared := assignment?_comparison List.not_mem_nil compares kept
        exact nomatch compared.symm.trans (keyword?_assign known)

/-- Statements are read as they are written, whatever their operands hold: those that a keyword opens,
with a colon after them or without, and assignments to all names but those that are read as keywords
with a condition. What compares a name with anything is no assignment. -/
theorem read_written {lead trail : List Char} (before : allBlank lead = true)
    (after : allBlank trail = true) :
    (∀ code s closing, Written code s → IsClosing closing →
      read (String.ofList (lead ++ (code ++ closing) ++ trail)) = s) ∧
    (∀ code name value, Assigns code name value → name ∉ conditionals →
      read (String.ofList (lead ++ code ++ trail)) =
        .assign (String.ofList name) (String.ofList value)) ∧
    ∀ name gap sign rest, isIdentifier name = true → allBlank gap = true → sign ∈ "=!<>".toList →
      ∀ n v, read (String.ofList (lead ++ (name ++ gap ++ [sign, '='] ++ rest) ++ trail)) ≠
        .assign n v := by
  refine ⟨?_, ?_, ?_⟩
  · intro code s closing written closes
    exact written.read_eq before closes after
  · intro code name value assigns other
    exact assigns.read_eq other before after
  · intro name gap sign rest named blank compares
    exact read_comparison named blank compares before after

/-- Operands that hold keywords, signs and colons. -/
theorem read_written_nested :
    read "\tfor key, value in map[a:b] in order : " = .each ["key", "value"] "map[a:b] in order" ∧
      read "for = else if x == 1: y" = .assign "for" "else if x == 1: y" ∧
      ∀ n v, read "set <= x = 3" ≠ .assign n v := by
  have blank : allBlank [] = true := rfl
  refine ⟨?_, ?_, ?_⟩
  · have tab : allBlank "\t".toList = true := by decide
    have space : allBlank " ".toList = true := by decide
    have names : ∀ name ∈ ["key".toList, "value".toList],
        isIdentifier name = true ∧ name ≠ "in".toList := by decide
    have items : IsOperand "map[a:b] in order".toList := ⟨by decide, by decide, by decide⟩
    have line := (read_written tab space).1 _ _ _ (.each (by decide) names items) (.colon space)
    simpa using line
  · have value : IsOperand "else if x == 1: y".toList := ⟨by decide, by decide, by decide⟩
    have space : allBlank " ".toList = true := by decide
    have written : Assigns "for = else if x == 1: y".toList "for".toList
        "else if x == 1: y".toList :=
      ⟨by decide, value, by decide, " ".toList, " ".toList, space, space, rfl⟩
    have line := (read_written blank blank).2.1 _ _ _ written (by decide)
    simpa using line
  · have space : allBlank " ".toList = true := by decide
    have line := (read_written blank blank).2.2 "set".toList " ".toList '<' " x = 3".toList
      (by decide) space (by decide)
    simpa using line

end Signs

end Statement

end Haml
