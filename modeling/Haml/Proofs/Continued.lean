import Haml.Proofs.Backslashes
import Haml.Proofs.Segments
import Haml.Proofs.TextLines
/-! Texts in double quotes that go on with an expression: what is read of such a text, and what is
read of it where nothing follows. -/

namespace Haml

namespace Text.Quoted

theorem readFrom_cons (mode : Mode) (index : Nat) (c : Char) :
    (∃ fault, ∀ cs, readFrom mode index (c :: cs) = .error fault) ∨
      ∃ out next, ∀ cs, readFrom mode index (c :: cs) =
        (out ++ ·) <$> readFrom next (index + 1) cs := by
  have same (x : Except Fault (List Char)) : x = (([] : List Char) ++ ·) <$> x := by
    cases x <;> rfl
  cases mode with
  | bare =>
      by_cases single : c = '\''
      · exact .inr ⟨[], .single, fun cs => by rw [readFrom, single]; exact same _⟩
      · by_cases double : c = '"'
        · exact .inr ⟨[], .double, fun cs => by rw [readFrom, double]; exact same _⟩
        · refine .inr ⟨[c], .bare, fun cs => ?_⟩
          simp only [readFrom, beq_iff_eq, if_neg single, if_neg double]
          rfl
  | single =>
      by_cases single : c = '\''
      · exact .inr ⟨[], .bare, fun cs => by rw [readFrom, single]; exact same _⟩
      · refine .inr ⟨[c], .single, fun cs => ?_⟩
        simp only [readFrom, beq_iff_eq, if_neg single]
        rfl
  | double =>
      by_cases double : c = '"'
      · exact .inr ⟨[], .bare, fun cs => by rw [readFrom, double]; exact same _⟩
      · by_cases slash : c = '\\'
        · exact .inr ⟨[], .escape, fun cs => by rw [readFrom, slash]; exact same _⟩
        · refine .inr ⟨[c], .double, fun cs => ?_⟩
          simp only [readFrom, beq_iff_eq, if_neg double, if_neg slash]
          rfl
  | escape =>
      by_cases unicode : c = 'u'
      · exact .inr ⟨[], .codePoint index, fun cs => by rw [readFrom, unicode]; exact same _⟩
      · cases known : escapes.lookup c with
        | none =>
            refine .inl ⟨.badEscape (String.ofList ['\\', c]) index, fun cs => ?_⟩
            simp only [readFrom, beq_iff_eq, if_neg unicode, known]
        | some d =>
            refine .inr ⟨[d], .double, fun cs => ?_⟩
            simp only [readFrom, beq_iff_eq, if_neg unicode, known]
            rfl
  | codePoint start =>
      by_cases brace : c = '{'
      · exact .inr ⟨[], .digits start [], fun cs => by rw [readFrom, brace]; exact same _⟩
      · refine .inl ⟨.badCodePoint .noBrace start, fun cs => ?_⟩
        simp only [readFrom, beq_iff_eq, if_neg brace]
  | digits start read =>
      by_cases brace : c = '}'
      · cases found : codePoint read with
        | ok d =>
            refine .inr ⟨[d], .double, fun cs => ?_⟩
            simp only [readFrom, beq_iff_eq, if_pos brace, found]
            rfl
        | error fault =>
            refine .inl ⟨.badCodePoint fault start, fun cs => ?_⟩
            simp only [readFrom, beq_iff_eq, if_pos brace, found]
      · refine .inr ⟨[], .digits start (read ++ [c]), fun cs => ?_⟩
        simp only [readFrom, beq_iff_eq, if_neg brace]
        exact same _

theorem foldlM_ne_ok {ε α β : Type} {step : β → α → Except ε β} {a : α} {items : List α}
    (member : a ∈ items) (refused : ∀ b c, step b a ≠ .ok c) (b c : β) :
    items.foldlM step b ≠ .ok c := by
  induction items generalizing b with
  | nil => cases member
  | cons item items ih =>
      intro done
      rw [List.foldlM_cons] at done
      obtain ⟨next, here, later⟩ := bind_ok done
      rcases List.mem_cons.mp member with rfl | among
      · exact refused b next here
      · exact ih among next later

theorem codePoint_backslash {digits : List Char} (member : '\\' ∈ digits) (c : Char) :
    codePoint digits ≠ .ok c := by
  have number (n : Nat) : hexValue 0xFFFFFFFF digits ≠ .ok n := by
    have hex : isHexDigit '\\' = false := by decide
    unfold hexValue
    extract_lets signless
    have inside : '\\' ∈ signless := by
      dsimp only [signless]
      split
      · exact (List.mem_cons.mp member).resolve_left (by decide)
      · exact member
    split
    · nofun
    · split
      · nofun
      · exact foldlM_ne_ok inside (fun b c => by simp [hex]) 0 n
  rw [codePoint]
  split
  · nofun
  · next n found => exact absurd found (number n)

theorem readFrom_digits_backslash {read : List Char} (member : '\\' ∈ read) (start index : Nat)
    (cs text : List Char) : readFrom (.digits start read) index cs ≠ .ok text := by
  induction cs generalizing read index with
  | nil =>
      rw [readFrom]
      split
      · next c found => exact absurd found (codePoint_backslash member c)
      · exact fun same => by cases same
  | cons c cs ih =>
      rw [readFrom]
      split
      · split
        · next d found => exact absurd found (codePoint_backslash member d)
        · exact fun same => by cases same
      · exact ih (List.mem_append_left [c] member) (index + 1)

/-- Texts that are alike up to a marker, where only one of them has a backslash, are not read alike.
The induction is on what comes before the marker, which is read in the same modes in both. -/
theorem readFrom_marker_apart (mode : Mode) (index : Nat) (before after rest text : List Char) :
    ¬ (readFrom mode index (before ++ '\\' :: '#' :: '{' :: after) = .ok text ∧
      readFrom mode index (before ++ '#' :: '{' :: rest) = .ok text) := by
  induction before generalizing mode index text with
  | nil =>
      rintro ⟨guarded, open'⟩
      cases mode with
      | bare | single =>
          obtain ⟨first, -, rfl⟩ := map_ok guarded
          obtain ⟨second, -, same⟩ := map_ok open'
          cases same
      | double => cases guarded
      | escape => cases open'
      | codePoint start => cases guarded
      | digits start read =>
          exact readFrom_digits_backslash (List.mem_append_right read (List.mem_singleton_self _))
            start (index + 1) _ text guarded
  | cons c before ih =>
      rintro ⟨guarded, open'⟩
      rw [List.cons_append] at guarded open'
      obtain ⟨fault, refused⟩ | ⟨out, next, read⟩ := readFrom_cons mode index c
      · rw [refused] at guarded
        cases guarded
      · rw [read] at guarded open'
        obtain ⟨first, here, rfl⟩ := map_ok guarded
        obtain ⟨second, there, same⟩ := map_ok open'
        obtain rfl := List.append_cancel_left same
        exact ih next (index + 1) _ ⟨here, there⟩

end Text.Quoted

namespace Interpolation

variable {cs : List Char}

/-- Whether there is a marker in a text, whatever stands before it. -/
abbrev HasMarker (cs : List Char) : Prop := ['#', '{'] <:+: cs

theorem hasMarker_cons {c : Char} : HasMarker (c :: cs) ↔ Marked (c :: cs) ∨ HasMarker cs :=
  List.infix_cons_iff

theorem head?_unescaped (opens : (unescaped cs).head? = some '{') : cs.head? = some '{' := by
  fun_cases unescaped cs with
  | case1 => cases opens
  | case2 c rest plain =>
      rw [unescaped] at opens
      · exact opens
      · exact plain
  | case3 => cases opens

/-- A text in which no expression starts is what comes of escaping what it stands for. -/
theorem escape_unescaped (unmarked : isMarked cs = false) : escape (unescaped cs) = cs := by
  fun_induction isMarked cs with
  | case1 rest ih => rw [unescaped, escape, ih unmarked]
  | case2 => cases unmarked
  | case3 c rest escaped marked ih =>
      rw [unescaped, escape, ih unmarked]
      · rintro after rfl opens
        obtain ⟨after, rfl⟩ := List.head?_eq_some_iff.mp
          (head?_unescaped (congrArg List.head? opens))
        exact marked after rfl rfl
      · exact escaped
  | case4 => rfl

theorem unescaped_of_plain (plain : ¬ HasMarker cs) : unescaped cs = cs := by
  fun_induction unescaped cs with
  | case1 rest => exact absurd ⟨['\\'], rest, rfl⟩ plain
  | case2 c rest _ ih => rw [ih (mt (fun inside => hasMarker_cons.mpr (.inr inside)) plain)]
  | case3 => rfl

/-- Up to the first marker, a text in which no expression starts stands for itself, but for the
backslash there. -/
theorem exists_of_hasMarker (unmarked : isMarked cs = false) (inside : HasMarker cs) :
    ∃ before after, cs = before ++ '\\' :: '#' :: '{' :: after ∧
      unescaped cs = before ++ '#' :: '{' :: unescaped after := by
  fun_induction isMarked cs with
  | case1 rest => exact ⟨[], rest, rfl, by rw [unescaped]; rfl⟩
  | case2 => cases unmarked
  | case3 c rest escaped marked ih =>
      have later : HasMarker rest := by
        refine (hasMarker_cons.mp inside).resolve_left ?_
        rintro ⟨after, same⟩
        cases same
        exact marked after rfl rfl
      obtain ⟨before, after, rfl, stands⟩ := ih unmarked later
      refine ⟨c :: before, after, rfl, ?_⟩
      rw [unescaped, stands]
      · rfl
      · exact escaped
  | case4 => cases inside with
    | intro before whole =>
        obtain ⟨after, whole⟩ := whole
        simp at whole

end Interpolation

namespace Attribute

open Interpolation (escape)

/-- Whether a text can stand between double quotes: each backslash in it takes the next character
along, which is no line end, and there is no other double quote. -/
def Enclosed : List Char → Prop
  | '\\' :: c :: cs => c ≠ '\n' ∧ Enclosed cs
  | c :: cs => c ≠ '"' ∧ c ≠ '\\' ∧ Enclosed cs
  | [] => True

def doubleQuoted (cs : List Char) : List Char := '"' :: (cs ++ ['"'])

section

variable {cs code : List Char}

theorem quotedLength_append (enclosed : Enclosed cs) (rest : List Char) :
    Token.quotedLength '"' (cs ++ rest) =
      ((Token.quotedLength '"' rest).1, (Token.quotedLength '"' rest).2 + cs.length) := by
  fun_induction Enclosed cs with
  | case1 c cs ih =>
      obtain ⟨visible, others⟩ := enclosed
      rw [List.cons_append, List.cons_append, Token.quotedLength, if_neg (by simpa using visible),
        ih others]
      rfl
  | case2 c cs _ ih =>
      obtain ⟨quote, slash, others⟩ := enclosed
      rw [List.cons_append, Token.quotedLength_cons slash, if_neg (by simpa using quote), ih others]
      rfl
  | case3 => rfl

theorem quotedLength_enclosed (enclosed : Enclosed cs) :
    Token.quotedLength '"' (cs ++ ['"']) = (true, (cs ++ ['"']).length) := by
  rw [quotedLength_append enclosed, List.length_append, Nat.add_comm]
  rfl

theorem enclosed_append (first : Enclosed cs) {rest : List Char} (second : Enclosed rest) :
    Enclosed (cs ++ rest) := by
  fun_induction Enclosed cs with
  | case1 c cs ih =>
      rw [List.cons_append, List.cons_append, Enclosed]
      exact ⟨first.1, ih first.2⟩
  | case2 c cs single ih =>
      obtain ⟨quote, slash, others⟩ := first
      rw [List.cons_append, Enclosed]
      · exact ⟨quote, slash, ih others⟩
      · rintro d ds rfl -
        exact slash rfl
  | case3 => exact second

theorem enclosed_of_quotedLength
    (closed : Token.quotedLength '"' (cs ++ ['"']) = (true, (cs ++ ['"']).length)) :
    Enclosed cs := by
  fun_induction Enclosed cs with
  | case1 c cs ih =>
      rw [List.cons_append, List.cons_append, Token.quotedLength] at closed
      split at closed
      · cases closed
      · next visible =>
          obtain ⟨ended, length⟩ := Prod.mk.inj closed
          exact ⟨by simpa using visible,
            ih (Prod.ext ended (Nat.add_right_cancel (m := 2) (by simpa using length)))⟩
  | case2 c cs single ih =>
      have slash : c ≠ '\\' := by
        rintro rfl
        cases cs with
        | nil => cases closed
        | cons d cs => exact single d cs rfl rfl
      rw [List.cons_append, Token.quotedLength_cons slash] at closed
      split at closed
      · simp at closed
      · next plain =>
          obtain ⟨ended, length⟩ := Prod.mk.inj closed
          exact ⟨by simpa using plain, slash,
            ih (Prod.ext ended (Nat.add_right_cancel (m := 1) (by simpa using length)))⟩
  | case3 => trivial

theorem enclosed_iff : Enclosed cs ↔
    Token.scan (doubleQuoted cs) = [⟨.doubleQuoted, doubleQuoted cs⟩] := by
  constructor
  · exact fun enclosed => Attribute.scan_quoted (.inl rfl) (quotedLength_enclosed enclosed)
  · intro single
    rw [doubleQuoted, Token.scan, Token.classify] at single
    obtain ⟨first, later⟩ := List.cons.inj single
    have behind := Token.texts_scan ((cs ++ ['"']).drop (Token.quotedLength '"' (cs ++ ['"'])).2)
    rw [later] at behind
    have most := List.drop_eq_nil_iff.mp behind.symm
    have least := Token.quotedLength_le '"' (cs ++ ['"'])
    have ended : (Token.quotedLength '"' (cs ++ ['"'])).1 = true := by
      have kind := congrArg Token.kind first
      simp only at kind
      split at kind
      · next ended => exact ended
      · cases kind
    exact enclosed_of_quotedLength (Prod.ext ended (Nat.le_antisymm least most))

theorem not_mem_of_enclosed (plain : '\\' ∉ cs) (enclosed : Enclosed (escape cs)) : '"' ∉ cs := by
  fun_induction escape cs with
  | case1 rest ih =>
      have later : '\\' ∉ rest := fun member => plain (by simp [member])
      obtain ⟨-, -, -, others⟩ := enclosed
      simpa using ih later others
  | case2 c rest unmarked ih =>
      obtain ⟨slash, later⟩ := List.ne_and_not_mem_of_not_mem_cons plain
      rw [Enclosed] at enclosed
      · obtain ⟨quote, -, others⟩ := enclosed
        exact List.not_mem_cons_of_ne_of_not_mem (Ne.symm quote) (ih later others)
      · rintro d ds rfl -
        exact slash rfl
  | case3 => exact List.not_mem_nil

end

end Attribute

namespace Text.Quoted

theorem mem_of_readFrom {mode : Mode} {index : Nat} {cs text : List Char}
    (outside : mode = .bare ∨ mode = .single) (plain : '"' ∉ cs) (member : '\\' ∈ cs)
    (read : readFrom mode index cs = .ok text) : '\\' ∈ text := by
  induction cs generalizing mode index text with
  | nil => cases member
  | cons c cs ih =>
      obtain ⟨quote, later⟩ := List.ne_and_not_mem_of_not_mem_cons plain
      have kept {next : Mode} (outside : next = .bare ∨ next = .single)
          (first : (c :: ·) <$> readFrom next (index + 1) cs = .ok text) : '\\' ∈ text := by
        obtain ⟨rest, others, rfl⟩ := map_ok first
        rcases List.mem_cons.mp member with rfl | behind
        · exact List.mem_cons_self ..
        · exact List.mem_cons_of_mem c (ih outside later behind others)
      have skipped {next : Mode} (outside : next = .bare ∨ next = .single) (single : c = '\'')
          (others : readFrom next (index + 1) cs = .ok text) : '\\' ∈ text := by
        subst single
        exact ih outside later ((List.mem_cons.mp member).resolve_left (by decide)) others
      rcases outside with rfl | rfl
      · rw [readFrom] at read
        split at read
        · next single => exact skipped (.inr rfl) (beq_iff_eq.mp single) read
        · split at read
          · next double => exact absurd (beq_iff_eq.mp double).symm quote
          · exact kept (.inl rfl) read
      · rw [readFrom] at read
        split at read
        · next single => exact skipped (.inl rfl) (beq_iff_eq.mp single) read
        · exact kept (.inr rfl) read

end Text.Quoted

namespace Attribute

open Interpolation

variable {cs : List Char}

/-- The backslash before a marker makes a difference to what is read, if anything is. -/
theorem unescape_apart (enclosed : Enclosed cs) (unmarked : isMarked cs = false)
    (inside : HasMarker cs) (text : String) :
    ¬ (unescape cs = .ok text ∧ unescape (unescaped cs) = .ok text) := by
  have read {cs : List Char} (slash : '\\' ∈ cs) (found : unescape cs = .ok text) :
      Text.Quoted.readFrom .bare 0 cs = .ok text.toList := by
    rw [unescape, if_pos slash] at found
    split at found
    · next read =>
        cases found
        rw [String.toList_ofList]
        exact read
    · cases found
  rintro ⟨guarded, open'⟩
  obtain ⟨before, after, whole, stands⟩ := exists_of_hasMarker unmarked inside
  have slash : '\\' ∈ cs := by simp [whole]
  have first := read slash guarded
  by_cases more : '\\' ∈ unescaped cs
  · have second := read more open'
    rw [whole] at first
    rw [stands] at second
    exact Text.Quoted.readFrom_marker_apart .bare 0 before after _ _ ⟨first, second⟩
  · have quotes : '"' ∉ cs := by
      have absent := not_mem_of_enclosed more (by rwa [escape_unescaped unmarked])
      rw [← escape_unescaped unmarked]
      exact mt (mem_of_mem_escape (by decide)) absent
    have kept := Text.Quoted.mem_of_readFrom (.inl rfl) quotes slash first
    rw [unescape, if_neg more] at open'
    cases open'
    rw [String.toList_ofList] at kept
    exact more kept

def continued (cs code : List Char) : List Char := cs ++ '#' :: '{' :: (code ++ ['}'])

/-- Merges the attribute that has what is written here for its value. -/
def mergeValue (e : Evaluator) (c : Context) (line : Nat) (name : String) (written : List Char)
    (s : AttributeSet) : Except Error AttributeSet := do
  match ← valueEntry line name (Token.scan written) with
  | some entry => Render.mergeEntry e c s entry
  | none => return s

def mergeText (line : Nat) (name : String) (text : Except AttributeFault String)
    (s : AttributeSet) : Except Error AttributeSet :=
  match text with
  | .ok text => .ok (s.merge name (.text text))
  | .error fault => .error (.attributeSyntax line fault)

section

variable {code : List Char} {e : Evaluator} {c : Context} {line : Nat} {name : String}

theorem valueEntry_doubleQuoted (enclosed : Enclosed cs) :
    valueEntry line name (Token.scan (doubleQuoted cs)) =
      tokenEntry line name ⟨.doubleQuoted, doubleQuoted cs⟩ := by
  rw [enclosed_iff.mp enclosed, valueEntry]

theorem tokenEntry_marked (marked : isMarked cs = true) {segments : List Segment}
    (cut : split cs = some segments) :
    tokenEntry line name ⟨.doubleQuoted, doubleQuoted cs⟩ =
      match segments.mapM unescapeSegment with
      | .ok segments => .ok (some (.dynamic name (.interpolated segments)))
      | .error fault => .error (.attributeSyntax line fault) := by
  have inner : withoutQuotes (doubleQuoted cs) = cs := withoutQuotes_quoted '"' cs
  rw [tokenEntry, inner, marked, cut]
  rfl

/-- A text alone in double quotes is read as it stands, its markers with their backslashes. -/
theorem mergeValue_alone (enclosed : Enclosed cs) (unmarked : isMarked cs = false)
    (s : AttributeSet) :
    mergeValue e c line name (doubleQuoted cs) s = mergeText line name (unescape cs) s := by
  have inner : withoutQuotes (doubleQuoted cs) = cs := withoutQuotes_quoted '"' cs
  rw [mergeValue, valueEntry_doubleQuoted enclosed, tokenEntry, inner, unmarked]
  simp only [Token.is, literal?, inner]
  cases unescape cs with
  | error fault => rfl
  | ok text => rfl

theorem enclosed_continued (enclosed : Enclosed cs) (inside : Enclosed code) :
    Enclosed (continued cs code) :=
  enclosed_append enclosed ⟨by decide, by decide, by decide, by decide,
    enclosed_append inside ⟨by decide, by decide, trivial⟩⟩

theorem isMarked_continued (unescaping : cs.getLast? ≠ some '\\') (code : List Char) :
    isMarked (continued cs code) = true := by
  refine Bool.of_not_eq_false fun unmarked => ?_
  exact unescaping (isMarked_eq_false_iff.mp unmarked cs _ rfl)

theorem split_continued (unmarked : isMarked cs = false) (unescaping : cs.getLast? ≠ some '\\')
    (closes : closingBrace (code ++ ['}']) = some (code, [])) :
    split (continued cs code) =
      some (flush (unescaped cs) ++ [.expression (String.ofList (Text.trim code))]) := by
  have last : (unescaped cs).getLast? ≠ some '\\' := by rwa [getLast?_unescaped]
  have closed : ('#' :: '{' :: (code ++ ['}'])).head? ≠ some '{' := by simp
  rw [split, continued]
  nth_rewrite 1 [← escape_unescaped unmarked]
  rw [splitFrom_escape closed fun _ => last, List.nil_append, splitFrom_marker, closes,
    Option.bind_some, splitFrom]
  rfl

/-- Before an expression that stands for nothing, a text in double quotes is read without the
backslashes before its markers. -/
theorem mergeValue_continued (enclosed : Enclosed cs) (unmarked : isMarked cs = false)
    (unescaping : cs.getLast? ≠ some '\\') (inside : Enclosed code)
    (closes : closingBrace (code ++ ['}']) = some (code, [])) {v : Value}
    (value : e.evaluate (String.ofList (Text.trim code)) c = .ok v) (empty : v.shown = "")
    (s : AttributeSet) :
    mergeValue e c line name (doubleQuoted (continued cs code)) s =
      mergeText line name (unescape (unescaped cs)) s := by
  let last : Segment := .expression (String.ofList (Text.trim code))
  have nothing : Render.interpolate e c false [last] = .ok [] := by
    simp only [last, Render.interpolate, Render.segment, value, empty, bind, Except.bind]
    rfl
  rw [mergeValue, valueEntry_doubleQuoted (enclosed_continued enclosed inside),
    tokenEntry_marked (isMarked_continued unescaping code)
      (split_continued unmarked unescaping closes)]
  cases unescaped cs with
  | nil =>
      have only : (flush [] ++ [last]).mapM unescapeSegment = .ok [last] := rfl
      have entry : Render.mergeEntry e c s (.dynamic name (.interpolated [last])) =
          .ok (s.merge name (.text "")) := by
        rw [Render.mergeEntry, nothing]
        rfl
      rw [only]
      exact entry
  | cons d ds =>
      have both : (flush (d :: ds) ++ [last]).mapM unescapeSegment =
          (unescape (d :: ds)).map fun text => [.literal text, last] := by
        have cut : flush (d :: ds) = [.literal (String.ofList (d :: ds))] := rfl
        rw [cut, List.singleton_append, List.mapM_cons, unescapeSegment, String.toList_ofList]
        cases unescape (d :: ds) <;> rfl
      have entry (text : String) :
          Render.mergeEntry e c s (.dynamic name (.interpolated [.literal text, last])) =
            .ok (s.merge name (.text text)) := by
        rw [Render.mergeEntry, Render.interpolate, Render.segment, nothing]
        simp [bind, Except.bind, pure, Except.pure]
      rw [both]
      cases unescape (d :: ds) with
      | error fault => rfl
      | ok text => exact entry text

theorem read_pair {n v : List Char} (named : IsName n) (value : IsValue v) (style : Style)
    (below : List (List Char)) :
    Tag.read line ('%' :: 'p' :: style.write [(n, v)]) below =
      (valueEntry line (String.ofList n) (Token.scan v)).map fun entry =>
        (⟨"p", entry.toList, false, false, false, none⟩, below) := by
  have opening : Tag.IsOpening (some ['p']) := by
    rintro n ⟨⟩
    exact ⟨List.cons_ne_nil _ _, List.forall_mem_singleton.mpr rfl⟩
  have paired : ∀ p ∈ [(n, v)], IsPair p := List.forall_mem_singleton.mpr ⟨named, value⟩
  have ends : Tag.Ends [] none := rfl
  have read : Tag.read line _ below = _ :=
    Tag.read_write line opening (List.forall_mem_nil _) paired ends style
  rw [List.append_nil, entries_cons] at read
  refine read.trans ?_
  cases valueEntry line (String.ofList n) (Token.scan v) with
  | error failure => rfl
  | ok entry => cases entry <;> rfl

/-- A text in double quotes that starts no expression comes to the same alone and before an
expression that stands for nothing, if there is no marker in it, be it that both are refused. If there
is one, the two never come to the same: alone, it keeps the backslash. -/
theorem mergeValue_doubleQuoted {n : List Char} (named : IsName n) (enclosed : Enclosed cs)
    (unmarked : isMarked cs = false) (unescaping : cs.getLast? ≠ some '\\')
    (inside : Enclosed code) (closes : closingBrace (code ++ ['}']) = some (code, [])) {v : Value}
    (value : e.evaluate (String.ofList (Text.trim code)) c = .ok v) (empty : v.shown = "")
    (line : Nat) :
    let name := String.ofList n
    let alone := doubleQuoted cs
    let more := doubleQuoted (continued cs code)
    (∀ s, mergeValue e c line name alone s = mergeText line name (unescape cs) s ∧
      mergeValue e c line name more s = mergeText line name (unescape (unescaped cs)) s) ∧
    (¬ HasMarker cs → unescape (unescaped cs) = unescape cs) ∧
    (HasMarker cs → ∀ text, ¬ (unescape cs = .ok text ∧ unescape (unescaped cs) = .ok text)) ∧
    ∀ written ∈ [alone, more], ∀ (style : Style) (below : List (List Char)),
      Tag.read line ('%' :: 'p' :: style.write [(n, written)]) below =
        (valueEntry line name (Token.scan written)).map fun entry =>
          (⟨"p", entry.toList, false, false, false, none⟩, below) := by
  intro name alone more
  have literal {cs : List Char} (enclosed : Enclosed cs) : IsValue (doubleQuoted cs) :=
    isValue_quoted (.inl rfl) (quotedLength_enclosed enclosed)
  refine ⟨fun s => ⟨mergeValue_alone enclosed unmarked s,
      mergeValue_continued enclosed unmarked unescaping inside closes value empty s⟩,
    fun plain => by rw [unescaped_of_plain plain], unescape_apart enclosed unmarked, ?_⟩
  intro written member style below
  have value : IsValue written := by
    rcases List.mem_pair.mp member with rfl | rfl
    · exact literal enclosed
    · exact literal (enclosed_continued enclosed inside)
  exact read_pair named value style below

theorem mergeValue_doubleQuoted_marker :
    let cs := "a\\n\\#\x7bx\x7d".toList
    IsName ['t'] ∧ Enclosed cs ∧ isMarked cs = false ∧ cs.getLast? ≠ some '\\' ∧ Enclosed ['e'] ∧
      closingBrace (['e'] ++ ['}']) = some (['e'], []) ∧ HasMarker cs ∧
      (∀ s, mergeValue .variables (.holding "") 1 "t" (doubleQuoted cs) s =
          .ok (s.merge "t" (.text "a\\n\\#\x7bx\x7d")) ∧
        mergeValue .variables (.holding "") 1 "t" (doubleQuoted (continued cs ['e'])) s =
          .ok (s.merge "t" (.text "a\\n#\x7bx\x7d"))) ∧
      ∀ text, ¬ (unescape cs = .ok text ∧ unescape (unescaped cs) = .ok text) := by
  intro cs
  have named : IsName ['t'] := ⟨'t', [], rfl, rfl, nofun⟩
  have enclosed : Enclosed cs := by
    simp [cs, Enclosed]
  have unmarked : isMarked cs = false := by decide +kernel
  have unescaping : cs.getLast? ≠ some '\\' := by decide +kernel
  have inside : Enclosed ['e'] := ⟨by decide, by decide, trivial⟩
  have marker : HasMarker cs := ⟨"a\\n\\".toList, "x\x7d".toList, by decide +kernel⟩
  obtain ⟨merged, -, apart, -⟩ :=
    mergeValue_doubleQuoted (e := .variables) (c := .holding "") (v := .ofString "") named enclosed
      unmarked unescaping inside rfl rfl rfl 1
  refine ⟨named, enclosed, unmarked, unescaping, inside, rfl, marker, fun s => ?_, apart marker⟩
  have alone : unescape cs = .ok "a\\n\\#\x7bx\x7d" := by decide +kernel
  have behind : unescape (unescaped cs) = .ok "a\\n#\x7bx\x7d" := by decide +kernel
  obtain ⟨first, second⟩ := merged s
  rw [alone] at first
  rw [behind] at second
  exact ⟨first, second⟩

end

end Attribute

/-- A backslash before a marker is kept, or dropped if an expression follows anywhere in the text. -/
theorem Template.backslash_kept :
    (Template.compile "%p\x7b:t => \"\\#\x7bx\x7d\"\x7d" .standard).map
        (fun t => (t.run .variables (.holding "")).1) =
      .ok (.ok "<p t='\\#\x7bx\x7d'></p>\n") ∧
    (Template.compile "%p\x7b:t => \"\\#\x7bx\x7d#\x7be\x7d\"\x7d" .standard).map
        (fun t => (t.run .variables (.holding "")).1) =
      .ok (.ok "<p t='#\x7bx\x7d'></p>\n") := by
  decide +kernel

end Haml
