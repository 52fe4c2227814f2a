import Haml.Proofs.Literals
import Haml.Proofs.Merging
import Haml.Proofs.Styles
import Haml.Render
/-! Literals in parentheses: the attributes of a hash of literals are merged when its tag is
compiled, and those of a hash whose literals stand in parentheses when it is rendered. -/

namespace Haml

namespace Attribute

open Token

def pair? (part : List Token) : Option (String × List Token) :=
  match trim part with
  | [] => none
  | first :: rest =>
      match (colonPair? first rest).or (rocketPair? first rest) with
      | some (.ok (name, value)) => some (name, trim value)
      | _ => none

def pairsOf? : List (List Token) → Option (List (String × List Token))
  | [] => some []
  | part :: parts =>
      if (trim part).isEmpty then pairsOf? parts
      else do
        let pair ← pair? part
        return pair :: (← pairsOf? parts)

/-- The names and values of a hash of pairs, given what its braces hold. -/
def pairs? (inner : List Char) : Option (List (String × List Token)) :=
  pairsOf? (splitCommas 0 (scan inner))

section

variable {line : Nat} {part value : List Token} {parts : List (List Token)} {name : String}

theorem hashEntry_of_pair (pair : pair? part = some (name, value)) (filled : value ≠ []) :
    hashEntry line part = valueEntry line name value := by
  unfold pair? at pair
  split at pair
  · cases pair
  · next first rest trimmed =>
      split at pair
      · next key written found =>
          cases pair
          rw [hashEntry, trimmed]
          simp only [found]
      · cases pair

theorem hashEntry_of_isEmpty (blank : (trim part).isEmpty = true) :
    hashEntry line part = .ok none := by
  rw [hashEntry, List.isEmpty_iff.mp blank]

variable {given : List (String × Token)} (write : Token → List Token)
  {entryOf : String × Token → Option AttributeEntry}

theorem mapM_hashEntry (filled : ∀ t, write t ≠ [])
    (valued : ∀ g ∈ given, valueEntry line g.1 (write g.2) = .ok (entryOf g))
    (found : pairsOf? parts = some (given.map fun g => (g.1, write g.2))) :
    ∃ read, parts.mapM (hashEntry line) = .ok read ∧
      read.reduceOption = given.filterMap entryOf := by
  induction parts generalizing given with
  | nil =>
      obtain rfl : given = [] := List.map_eq_nil_iff.mp (Option.some.inj found).symm
      exact ⟨[], rfl, rfl⟩
  | cons part parts ih =>
      rw [pairsOf?] at found
      split at found
      · next blank =>
          obtain ⟨read, others, same⟩ := ih valued found
          refine ⟨none :: read, ?_, by rw [List.reduceOption_cons_of_none, same]⟩
          rw [List.mapM_cons, hashEntry_of_isEmpty blank, others]
          rfl
      · obtain ⟨pair, here, found⟩ := Option.bind_eq_some_iff.mp found
        obtain ⟨more, rest, same⟩ := Option.bind_eq_some_iff.mp found
        cases given with
        | nil => cases same
        | cons g given =>
            obtain ⟨rfl, rfl⟩ := List.cons.inj (Option.some.inj same)
            obtain ⟨valued, others⟩ := List.forall_mem_cons.mp valued
            obtain ⟨read, ran, same⟩ := ih others rest
            refine ⟨entryOf g :: read, ?_, ?_⟩
            · rw [List.mapM_cons, hashEntry_of_pair here (filled g.2), valued, ran]
              rfl
            · cases known : entryOf g with
              | none => rw [List.reduceOption_cons_of_none, same, List.filterMap_cons_none known]
              | some entry =>
                  rw [List.reduceOption_cons_of_some, same, List.filterMap_cons_some known]

theorem ofHash_of_pairs {inner : List Char} (filled : ∀ t, write t ≠ [])
    (valued : ∀ g ∈ given, valueEntry line g.1 (write g.2) = .ok (entryOf g))
    (found : pairs? inner = some (given.map fun g => (g.1, write g.2))) :
    ofHash line inner = .ok (given.filterMap entryOf) := by
  obtain ⟨read, ran, same⟩ := mapM_hashEntry write filled valued found
  rw [ofHash, ran, ← same]
  rfl

end

def statedAll (given : List (String × Token)) : AttributeSet.Stated :=
  given.map fun g => (g.1, stated g.2)

/-- The attribute that a literal in parentheses is read as. -/
def lateEntry (g : String × Token) : AttributeEntry := .dynamic g.1 (.expression (code g.2))

section

variable {line : Nat} {inner : List Char} {given : List (String × Token)}

theorem ofHash_literals (literal : ∀ g ∈ given, IsLiteral g.2)
    (found : pairs? inner = some (given.map fun g => (g.1, [g.2]))) :
    ofHash line inner = .ok ((statedAll given).filterMap fun e => e.2.map (.fixed e.1)) := by
  rw [statedAll, List.filterMap_map]
  exact ofHash_of_pairs (fun t => [t]) (fun t => List.cons_ne_nil t [])
    (fun g member => (literal g member).tokenEntry_eq line g.1) found

theorem ofHash_parenthesized
    (found : pairs? inner = some (given.map fun g => (g.1, parenthesized g.2))) :
    ofHash line inner = .ok (given.map lateEntry) := by
  rw [← List.filterMap_eq_map]
  exact ofHash_of_pairs parenthesized nofun (fun _ _ => rfl) found

end

end Attribute

namespace Compile

open Attribute

variable (o : Options) (line : Nat)

theorem foldlM_fixed (entries : AttributeSet.Stated) (known : AttributeSet × List AttributeEntry) :
    (entries.filterMap fun e => e.2.map (.fixed e.1)).foldlM (addEntry o line) known =
      .ok (entries.foldl AttributeSet.mergeKnown known.1, known.2) := by
  induction entries generalizing known with
  | nil => rfl
  | cons entry entries ih =>
      obtain ⟨name, value⟩ := entry
      cases value with
      | none => exact ih known
      | some value => exact ih (known.1.merge name value, known.2)

variable {o line}

theorem addEntry_late (evaluated : o.suppressEval = false)
    (checked : ∀ check ∈ o.syntaxCheck, check = Expr.check) {g : String × Token}
    (literal : IsLiteral g.2) (known : AttributeSet × List AttributeEntry) :
    addEntry o line known (lateEntry g) = .ok (known.1, known.2 ++ [lateEntry g]) := by
  obtain ⟨e, parsed, -⟩ := literal.yields
  have passes : checkEntry o line (lateEntry g) = .ok () := by
    unfold checkEntry
    split
    · rfl
    · next check found =>
        obtain rfl := checked check found
        have passed : Expr.check (code g.2) = .ok () := by rw [Expr.check, parsed]
        change (do ((Expr.check (code g.2)).mapError _); .ok ()) = _
        rw [passed]
        rfl
  rw [lateEntry, addEntry, if_neg (by simp [evaluated]), ← lateEntry, passes]
  · rfl
  · exact nofun

theorem foldlM_late (evaluated : o.suppressEval = false)
    (checked : ∀ check ∈ o.syntaxCheck, check = Expr.check) {given : List (String × Token)}
    (literal : ∀ g ∈ given, IsLiteral g.2) (known : AttributeSet × List AttributeEntry) :
    (given.map lateEntry).foldlM (addEntry o line) known =
      .ok (known.1, known.2 ++ given.map lateEntry) := by
  induction given generalizing known with
  | nil => rw [List.map_nil, List.append_nil]; rfl
  | cons g given ih =>
      obtain ⟨here, others⟩ := List.forall_mem_cons.mp literal
      rw [List.map_cons, List.foldlM_cons, addEntry_late evaluated checked here]
      exact (ih others _).trans (by rw [List.append_assoc]; rfl)

end Compile

namespace Render

open Attribute

variable (extra : List Function) (render : Evaluator.Expressions.Render) {c : Context}

theorem mergeEntry_late (absent : ∀ v ∈ c.bindings.find? "nil", v.isAbsent = true)
    {g : String × Token} (literal : IsLiteral g.2) (s : AttributeSet) :
    mergeEntry (Evaluator.Expressions.evaluator extra render) c s (lateEntry g) =
      .ok (s.mergeComputed g.1 (stated g.2)) := by
  obtain ⟨e, parsed, yields⟩ := literal.yields
  obtain ⟨v, value, states⟩ := yields ⟨extra, c.bindings, render⟩ absent
  have evaluated :
      (Evaluator.Expressions.evaluator extra render).evaluate (code g.2) c = .ok v := by
    change (do Expr.eval ⟨extra, c.bindings, render⟩ (← Expr.parse (code g.2))).mapError _ = _
    rw [parsed]
    exact congrArg (Except.mapError Fault.error) value
  rw [lateEntry, mergeEntry, evaluated, ← states g.1]
  rfl

/-- A render evaluates the literals and merges what they state, nothing included. -/
theorem foldlM_mergeEntry_late (absent : ∀ v ∈ c.bindings.find? "nil", v.isAbsent = true)
    {given : List (String × Token)} (literal : ∀ g ∈ given, IsLiteral g.2) (s : AttributeSet) :
    (given.map lateEntry).foldlM (mergeEntry (Evaluator.Expressions.evaluator extra render) c) s =
      .ok ((statedAll given).foldl (fun s e => s.mergeComputed e.1 e.2) s) := by
  induction given generalizing s with
  | nil => rfl
  | cons g given ih =>
      obtain ⟨here, others⟩ := List.forall_mem_cons.mp literal
      rw [List.map_cons, List.foldlM_cons, mergeEntry_late extra render absent here]
      exact ih others _

end Render

def Compile.hashTag (o : Options) (line : Nat) (t : Tag) (inner : List Char) :
    Except Error CompiledTag := do
  let found ← Attribute.ofHash line inner
  Compile.tag o { t with attributes := found } line

namespace Tag

open Attribute

variable {line : Nat} {o : Options} {t : Tag} {inner : List Char} {given : List (String × Token)}

theorem hashTag_literals (literal : ∀ g ∈ given, IsLiteral g.2)
    (found : pairs? inner = some (given.map fun g => (g.1, [g.2]))) :
    Compile.hashTag o line t inner =
      .ok ⟨t.name, .known (statedAll given), [], t.trimOuter, t.trimInner⟩ := by
  rw [Compile.hashTag, ofHash_literals literal found]
  change Compile.tag o _ line = _
  rw [Compile.tag, Compile.foldlM_fixed]
  rfl

theorem hashTag_parenthesized (evaluated : o.suppressEval = false)
    (checked : ∀ check ∈ o.syntaxCheck, check = Expr.check)
    (literal : ∀ g ∈ given, IsLiteral g.2)
    (found : pairs? inner = some (given.map fun g => (g.1, parenthesized g.2))) :
    Compile.hashTag o line t inner =
      .ok ⟨t.name, .empty, given.map lateEntry, t.trimOuter, t.trimInner⟩ := by
  rw [Compile.hashTag, ofHash_parenthesized found]
  change Compile.tag o _ line = _
  rw [Compile.tag, Compile.foldlM_late evaluated checked literal]
  rfl

/-- A tag with a hash of literals opens as the tag whose literals stand in parentheses, and so are
evaluated when it is rendered, if no literal nothing comes after a value of the same name other than
class and id. In any case the one keeps what the literals state and the other takes back what a later
nothing does, and an attribute has the same value in both exactly if its last literal is not a
nothing that takes a value back. -/
theorem opens_parenthesized (line : Nat) {o : Options} (evaluated : o.suppressEval = false)
    (checked : ∀ check ∈ o.syntaxCheck, check = Expr.check) {inner inside : List Char}
    {given : List (String × Token)} (literal : ∀ g ∈ given, IsLiteral g.2)
    (plain : pairs? inner = some (given.map fun g => (g.1, [g.2])))
    (parens : pairs? inside = some (given.map fun g => (g.1, parenthesized g.2)))
    (extra : List Function) (render : Evaluator.Expressions.Render) {c : Context}
    (absent : ∀ v ∈ c.bindings.find? "nil", v.isAbsent = true) (t : Tag) :
    ∃ fixed late,
      Compile.hashTag o line t inner = .ok fixed ∧ fixed.computed = [] ∧
      fixed.attributes = .known (statedAll given) ∧
      Compile.hashTag o line t inside = .ok late ∧ late.attributes = .empty ∧
      late.computed.length = given.length ∧
      late.computed.foldlM (Render.mergeEntry (Evaluator.Expressions.evaluator extra render) c)
        late.attributes = .ok (.late (statedAll given)) ∧
      (∀ name, (AttributeSet.known (statedAll given)).get? name =
          (AttributeSet.late (statedAll given)).get? name ↔
        ¬ AttributeSet.Withdrawn name (statedAll given)) ∧
      ((statedAll given).Pairwise AttributeSet.Keeps → ∀ settings, ∃ opened,
        Render.openTag (Evaluator.Expressions.evaluator extra render) c settings fixed =
          .ok opened ∧
        Render.openTag (Evaluator.Expressions.evaluator extra render) c settings late =
          .ok opened) := by
  have merged := Render.foldlM_mergeEntry_late extra render absent literal .empty
  rw [← AttributeSet.late] at merged
  refine ⟨_, _, hashTag_literals literal plain, rfl, rfl,
    hashTag_parenthesized evaluated checked literal parens, rfl, List.length_map .., merged,
    AttributeSet.get?_known_eq_late_iff _, fun keeps settings => ⟨_, rfl, ?_⟩⟩
  simp only [Render.openTag, merged, AttributeSet.late_eq_known keeps]
  rfl

def letter : Token := ⟨.singleQuoted, ['\'', 'x', '\'']⟩

theorem isLiteral_letter : IsLiteral letter := by
  have plain : ∀ c ∈ ['x'], c ≠ '\'' ∧ c ≠ '\\' := List.forall_mem_singleton.mpr (by decide)
  have unmarked : ¬ ['#', '{'] <:+: ['x'] := fun inside => absurd inside.length_le (by decide)
  exact .text (.inr rfl) plain unmarked

def sampleLiterals : List (String × Token) :=
  [("a", letter), ("class", ⟨.number, ['-', '1', '2']⟩), ("a", ⟨.name, ['t', 'r', 'u', 'e']⟩),
    ("class", ⟨.name, ['n', 'i', 'l']⟩)]

theorem opens_parenthesized_sample : ∃ fixed late opened,
    Compile.hashTag .standard 1 ⟨"p", [], false, false, false, none⟩
      ":a => 'x', class: -12, 'a' => true, :class => nil".toList = .ok fixed ∧
    Compile.hashTag .standard 1 ⟨"p", [], false, false, false, none⟩
      ":a => ('x'), class: (-12), 'a' => (true), :class => (nil)".toList = .ok late ∧
    Render.openTag (Evaluator.Expressions.evaluator [] fun _ _ => .ok .null)
      (.new (.expressions [])) Options.standard.renderSettings fixed = .ok opened ∧
    Render.openTag (Evaluator.Expressions.evaluator [] fun _ _ => .ok .null)
      (.new (.expressions [])) Options.standard.renderSettings late = .ok opened := by
  have number : IsInteger ['-', '1', '2'] :=
    ⟨['1', '2'], nofun, List.all_eq_true.mp rfl, .inr rfl⟩
  have literal : ∀ g ∈ sampleLiterals, IsLiteral g.2 := by
    rw [sampleLiterals]
    simp only [List.forall_mem_cons]
    exact ⟨isLiteral_letter, .integer number rfl, .yes, .nothing, List.forall_mem_nil _⟩
  have plain : pairs? ":a => 'x', class: -12, 'a' => true, :class => nil".toList =
      some (sampleLiterals.map fun g => (g.1, [g.2])) := by decide +kernel
  have parens : pairs? ":a => ('x'), class: (-12), 'a' => (true), :class => (nil)".toList =
      some (sampleLiterals.map fun g => (g.1, parenthesized g.2)) := by decide +kernel
  have checked : ∀ check ∈ Options.standard.syntaxCheck, check = Expr.check := by
    rintro check ⟨⟩
    rfl
  have absent : ∀ v ∈ (Context.new (.expressions [])).bindings.find? "nil", v.isAbsent = true :=
    nofun
  obtain ⟨fixed, late, known, -, -, computed, -, -, -, -, alike⟩ :=
    opens_parenthesized 1 rfl checked literal plain parens [] (fun _ _ => .ok .null) absent
      ⟨"p", [], false, false, false, none⟩
  obtain ⟨opened, first, second⟩ := alike (by decide +kernel) Options.standard.renderSettings
  exact ⟨fixed, late, opened, known, computed, first, second⟩

/-- A literal nothing leaves the value before it alone, and in parentheses takes it back. -/
theorem opens_withdrawn : ∃ fixed late,
    Compile.tagLine .standard 1 "%p\x7b:a => 'x', :a => nil\x7d".toList [] = .ok fixed ∧
    Compile.tagLine .standard 1 "%p\x7b:a => ('x'), :a => (nil)\x7d".toList [] = .ok late ∧
    ∀ extra render,
      Render.openTag (Evaluator.Expressions.evaluator extra render) (.new (.expressions []))
        Options.standard.renderSettings fixed = .ok "<p a='x'".toList ∧
      Render.openTag (Evaluator.Expressions.evaluator extra render) (.new (.expressions []))
        Options.standard.renderSettings late = .ok "<p".toList := by
  have literal : ∀ g ∈ [("a", letter), ("a", ⟨.name, ['n', 'i', 'l']⟩)], IsLiteral g.2 := by
    simp only [List.forall_mem_cons]
    exact ⟨isLiteral_letter, .nothing, List.forall_mem_nil _⟩
  refine ⟨⟨"p", ⟨[("a", .text "x")]⟩, [], false, false⟩,
    ⟨"p", .empty, [.dynamic "a" (.expression "('x')"), .dynamic "a" (.expression "(nil)")], false,
      false⟩, by decide +kernel, by decide +kernel, fun extra render => ⟨rfl, ?_⟩⟩
  have absent : ∀ v ∈ (Context.new (.expressions [])).bindings.find? "nil", v.isAbsent = true :=
    nofun
  have merged := Render.foldlM_mergeEntry_late extra render absent literal .empty
  exact congrArg (fun set => Except.bind set fun set => .ok ('<' :: "p".toList ++
    (set.write '\'' true).toList)) merged

end Tag

end Haml
