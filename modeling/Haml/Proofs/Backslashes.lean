import Haml.Proofs.Interpolated
import Haml.Proofs.Styles
/-! Backslashes: texts written in single quotes, where backslashes escape what would end them, and
what attributes are given of such texts. -/

namespace Haml

namespace Attribute

def backslash (c : Char) : List Char := if c = '\\' ∨ c = '\'' then ['\\', c] else [c]

def singleQuoted (cs : List Char) : List Char := '\'' :: (cs.flatMap backslash ++ ['\''])

/-- The quotes that are open where a text without its outer ones has been read to. -/
inductive Quotes where
  | none
  | single
  | double
  deriving DecidableEq

namespace Quotes

def mode : Quotes → Text.Quoted.Mode
  | none => .bare
  | single => .single
  | double => .double

def output : Quotes → Char → List Char
  | none, '\\' | single, '\\' => ['\\', '\\']
  | none, '\'' | single, '\'' => ['\\']
  | none, '"' | double, '"' => []
  | _, c => [c]

def after : Quotes → Char → Quotes
  | none, '\'' => single
  | none, '"' => double
  | single, '\'' => none
  | double, '"' => none
  | q, _ => q

/-- What is read of a text. -/
def read : Quotes → List Char → List Char
  | _, [] => []
  | q, c :: cs => q.output c ++ read (q.after c) cs

end Quotes

def held (cs : List Char) : List Char :=
  if '\\' ∈ cs ∨ '\'' ∈ cs then Quotes.none.read cs else cs

section

variable {c : Char} {cs : List Char}

open Token (quotedLength quotedLength_cons)

theorem backslash_special (special : c = '\\' ∨ c = '\'') : backslash c = ['\\', c] := if_pos special

theorem backslash_plain (plain : ¬ (c = '\\' ∨ c = '\'')) : backslash c = [c] := if_neg plain

theorem quotedLength_flatMap_backslash (cs : List Char) :
    quotedLength '\'' (cs.flatMap backslash ++ ['\'']) =
      (true, (cs.flatMap backslash ++ ['\'']).length) := by
  induction cs with
  | nil => rfl
  | cons c cs ih =>
      rw [List.flatMap_cons, List.append_assoc]
      by_cases special : c = '\\' ∨ c = '\''
      · have newline : (c == '\n') = false := by rcases special with rfl | rfl <;> rfl
        rw [backslash_special special, List.cons_append, List.singleton_append, quotedLength,
          newline, ih]
        rfl
      · obtain ⟨slash, quote⟩ := not_or.mp special
        rw [backslash_plain special, List.singleton_append, quotedLength_cons slash,
          if_neg (by simpa using quote), ih]
        rfl

theorem mem_flatMap_backslash : '\\' ∈ cs.flatMap backslash ↔ '\\' ∈ cs ∨ '\'' ∈ cs := by
  constructor
  · intro member
    obtain ⟨c, inside, written⟩ := List.mem_flatMap.mp member
    by_cases special : c = '\\' ∨ c = '\''
    · rcases special with rfl | rfl
      · exact .inl inside
      · exact .inr inside
    · rw [backslash_plain special, List.mem_singleton] at written
      exact absurd (.inl written.symm) special
  · rintro (slash | quote)
    · exact List.mem_flatMap.mpr ⟨'\\', slash, by decide⟩
    · exact List.mem_flatMap.mpr ⟨'\'', quote, by decide⟩

theorem flatMap_backslash_of_plain (plain : ¬ ('\\' ∈ cs ∨ '\'' ∈ cs)) :
    cs.flatMap backslash = cs := by
  have each : ∀ c ∈ cs, backslash c = [c] := by
    intro c member
    refine backslash_plain ?_
    rintro (rfl | rfl)
    · exact plain (.inl member)
    · exact plain (.inr member)
  calc cs.flatMap backslash
      = cs.flatMap (fun c => [c]) := List.flatMap_congr each
    _ = cs := List.flatMap_singleton' cs

theorem readFrom_backslash (q : Quotes) (index : Nat) (c : Char) (rest : List Char) :
    ∃ next, Text.Quoted.readFrom q.mode index (backslash c ++ rest) =
      (q.output c ++ ·) <$> Text.Quoted.readFrom (q.after c).mode next rest := by
  by_cases special : c = '\\' ∨ c = '\''
  · have known : Text.Quoted.escapes.lookup c = some c := by rcases special with rfl | rfl <;> rfl
    rw [backslash_special special]
    refine ⟨index + 2, ?_⟩
    rcases special with rfl | rfl <;> cases q <;>
      simp [Text.Quoted.readFrom, Quotes.output, Quotes.after, Quotes.mode, known]
  · rw [backslash_plain special]
    obtain ⟨slash, quote⟩ := not_or.mp special
    refine ⟨index + 1, ?_⟩
    by_cases double : c = '"'
    · subst double
      cases q <;> simp [Text.Quoted.readFrom, Quotes.output, Quotes.after, Quotes.mode]
    · cases q <;> simp [Text.Quoted.readFrom, Quotes.output, Quotes.after, Quotes.mode, slash,
        quote, double]

theorem readFrom_flatMap_backslash (q : Quotes) (index : Nat) (cs : List Char) :
    Text.Quoted.readFrom q.mode index (cs.flatMap backslash) = .ok (q.read cs) := by
  induction cs generalizing q index with
  | nil => cases q <;> rfl
  | cons c cs ih =>
      obtain ⟨next, first⟩ := readFrom_backslash q index c (cs.flatMap backslash)
      rw [List.flatMap_cons, first, ih]
      rfl

namespace Quotes

theorem count_output (q : Quotes) (c : Char) : [c].count '\\' ≤ (q.output c).count '\\' := by
  fun_cases output q c <;> simp

theorem count_read (q : Quotes) (cs : List Char) : cs.count '\\' ≤ (q.read cs).count '\\' := by
  induction cs generalizing q with
  | nil => exact Nat.zero_le _
  | cons c cs ih =>
      have whole : c :: cs = [c] ++ cs := rfl
      rw [read, whole, List.count_append, List.count_append]
      exact Nat.add_le_add (q.count_output c) (ih _)

theorem head?_read {q : Quotes} (outside : q ≠ single) (cs : List Char) :
    (q.read cs).head? ≠ some '"' := by
  induction cs generalizing q with
  | nil => cases q <;> exact nofun
  | cons c cs ih =>
      by_cases double : c = '"'
      · subst double
        cases q with
        | none => exact ih nofun
        | single => exact absurd rfl outside
        | double => exact ih nofun
      · rw [read]
        fun_cases output q c <;> simp_all

/-- The first backslash or quote of a text makes a difference: it is doubled, or replaced or dropped
where what comes next differs from it. -/
theorem read_eq_self (same : none.read cs = cs) : ¬ ('\\' ∈ cs ∨ '\'' ∈ cs) := by
  induction cs with
  | nil => simp
  | cons c cs ih =>
      by_cases slash : c = '\\'
      · subst slash
        have more : '\\' :: none.read cs = cs := (List.cons.inj same).2
        have counts := congrArg (List.count '\\') more
        have kept := count_read none cs
        rw [List.count_cons_self] at counts
        omega
      by_cases quote : c = '\''
      · subst quote
        cases (List.cons.inj same).1
      by_cases double : c = '"'
      · subst double
        have starts : (Quotes.double.read cs).head? = some '"' := congrArg List.head? same
        have outside : Quotes.double ≠ single := nofun
        exact absurd starts (head?_read outside cs)
      have plain : none.output c = [c] ∧ none.after c = none := by
        simp [output, after, slash, quote, double]
      rw [read, plain.1, plain.2] at same
      have others := ih (List.cons.inj same).2
      simpa [Ne.symm slash, Ne.symm quote] using others

end Quotes

theorem held_eq_self_iff : held cs = cs ↔ '\\' ∉ cs ∧ '\'' ∉ cs := by
  rw [held, ← not_or]
  split
  · next special => exact ⟨Quotes.read_eq_self, fun plain => absurd special plain⟩
  · next plain => exact ⟨fun _ => plain, fun _ => rfl⟩

theorem unescape_flatMap_backslash (cs : List Char) :
    unescape (cs.flatMap backslash) = .ok (String.ofList (held cs)) := by
  rw [unescape, held]
  simp only [mem_flatMap_backslash]
  split
  · have read := readFrom_flatMap_backslash .none 0 cs
    rw [Quotes.mode] at read
    rw [Text.Quoted.read, read]
  · next plain => rw [flatMap_backslash_of_plain plain]

theorem scan_singleQuoted (cs : List Char) :
    Token.scan (singleQuoted cs) = [⟨.singleQuoted, singleQuoted cs⟩] :=
  scan_quoted (.inr rfl) (quotedLength_flatMap_backslash cs)

theorem isValue_singleQuoted (cs : List Char) : IsValue (singleQuoted cs) :=
  isValue_quoted (.inr rfl) (quotedLength_flatMap_backslash cs)

theorem valueEntry_singleQuoted (line : Nat) (name : String) (cs : List Char) :
    valueEntry line name (Token.scan (singleQuoted cs)) =
      .ok (some (.fixed name (.text (String.ofList (held cs))))) := by
  have inner : withoutQuotes (singleQuoted cs) = cs.flatMap backslash := withoutQuotes_quoted _ _
  rw [scan_singleQuoted, valueEntry, tokenEntry]
  simp only [Token.is, literal?, inner, unescape_flatMap_backslash]
  rfl

theorem entries_singleQuoted (line : Nat) (n cs : List Char) :
    entries line [(n, singleQuoted cs)] =
      .ok [.fixed (String.ofList n) (.text (String.ofList (held cs)))] := by
  rw [entries_cons, valueEntry_singleQuoted]
  rfl

/-- A literal in single quotes is always read as the text of an attribute. That is the text that has
been written exactly if it holds neither backslashes nor single quotes: what is read of others has
lost the quotes that backslashes were to keep, and kept the backslashes. -/
theorem ofHash_singleQuoted (line : Nat) {n : List Char} (named : IsName n) (cs : List Char) :
    let attributes := [AttributeEntry.fixed (String.ofList n) (.text (String.ofList (held cs)))]
    ofHash line (Style.rocket.pair n (singleQuoted cs)) = .ok attributes ∧
      (∀ below, Tag.read line ('%' :: 'p' :: Style.rocket.write [(n, singleQuoted cs)]) below =
        .ok (⟨"p", attributes, false, false, false, none⟩, below)) ∧
      (held cs = cs ↔ '\\' ∉ cs ∧ '\'' ∉ cs) := by
  have paired : ∀ p ∈ [(n, singleQuoted cs)], IsPair p :=
    List.forall_mem_singleton.mpr ⟨named, isValue_singleQuoted cs⟩
  refine ⟨?_, fun below => ?_, held_eq_self_iff⟩
  · have hash : Style.rocket ≠ .list := by decide
    have whole : Style.rocket.inner [(n, singleQuoted cs)] =
        Style.rocket.pair n (singleQuoted cs) := by
      rw [Style.inner, List.map_singleton, List.intercalate_singleton]
    rw [← whole, ofHash_inner line hash paired, entries_singleQuoted]
  · have name : Tag.IsOpening (some ['p']) := by
      rintro n ⟨⟩
      exact ⟨List.cons_ne_nil _ _, List.forall_mem_singleton.mpr rfl⟩
    have unmarked : ∀ m ∈ [], Tag.IsShorthand m := List.forall_mem_nil _
    have ends : Tag.Ends [] none := rfl
    have read : Tag.read line _ below = _ :=
      Tag.read_write line name unmarked paired ends .rocket
    rw [entries_singleQuoted, List.append_nil] at read
    exact read

theorem ofHash_singleQuoted_quote :
    IsName ['t'] ∧
    let attributes := [AttributeEntry.fixed "t" (.text (String.ofList (held "it's".toList)))]
    ofHash 1 (Style.rocket.pair ['t'] (singleQuoted "it's".toList)) = .ok attributes ∧
      (∀ below, Tag.read 1
          ('%' :: 'p' :: Style.rocket.write [(['t'], singleQuoted "it's".toList)]) below =
        .ok (⟨"p", attributes, false, false, false, none⟩, below)) ∧
      (held "it's".toList = "it's".toList ↔ '\\' ∉ "it's".toList ∧ '\'' ∉ "it's".toList) := by
  have named : IsName ['t'] := ⟨'t', [], rfl, rfl, nofun⟩
  exact ⟨named, ofHash_singleQuoted 1 named "it's".toList⟩

end

end Attribute

/-- The quote that a backslash stands before is dropped, and the backslash kept. -/
theorem Template.quote_lost :
    Attribute.Style.rocket.write [(['t'], Attribute.singleQuoted "it's".toList)] =
      "\x7b:t => 'it\\'s'\x7d".toList ∧
    (Template.compile "%p\x7b:t => 'it\\'s'\x7d" .standard).map
        (fun t => (t.run .variables (.new .echo)).1) =
      .ok (.ok "<p t='it\\s'></p>\n") :=
  ⟨by decide, by decide +kernel⟩

end Haml
