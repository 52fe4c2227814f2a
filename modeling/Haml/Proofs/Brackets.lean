import Haml.Proofs.Interpolated
import Haml.Proofs.Offset.Tokens
import Haml.Proofs.Region
/-! Brackets of attribute lists: which bracket a list ends at. One count stands for the brackets of
every kind, so a list may end at a bracket of another kind than the one that it starts with. -/

namespace Haml

namespace Attribute

namespace Bracket

def opener : Bracket → Char
  | brace => '{'
  | paren => '('
  | square => '['

def closer : Bracket → Char
  | brace => '}'
  | paren => ')'
  | square => ']'

def anyKind : Bracket → Bracket → Bool := fun _ _ => true

def sameKind : Bracket → Bracket → Bool := fun b d => b == d

theorem classify_opener (b : Bracket) (cs : List Char) :
    Token.classify b.opener cs = (.opening b, 0) := by
  cases b <;> rfl

theorem utf8Size_opener (b : Bracket) : b.opener.utf8Size = 1 := by
  cases b <;> rfl

end Bracket

namespace Token

/-- Runs of tokens in which each bracket that opens is closed by one that fits it, and no other
bracket closes. -/
inductive Nested (fits : Bracket → Bracket → Bool) : List Token → Prop
  | nil : Nested fits []
  | flat {t : Token} {ts : List Token} (unopened : t.opens = false) (unclosed : t.closes = false)
      (rest : Nested fits ts) : Nested fits (t :: ts)
  | pair {o c : Token} {b d : Bracket} {inner rest : List Token} (opens : o.kind = .opening b)
      (closes : c.kind = .closing d) (fit : fits b d = true) (inside : Nested fits inner)
      (others : Nested fits rest) : Nested fits (o :: (inner ++ c :: rest))

/-- The tokens before the one that closes the last of the brackets that are waiting for it, the
innermost first, and those after it; none if a bracket is closed by one that does not fit. -/
def closingWith (fits : Bracket → Bracket → Bool) :
    List Bracket → List Token → Option (List Token × List Token)
  | _, [] => none
  | waiting, t :: ts =>
      match t.kind with
      | .opening b =>
          (closingWith fits (b :: waiting) ts).map fun (inner, rest) => (t :: inner, rest)
      | .closing d =>
          match waiting with
          | [] => none
          | b :: others =>
              if fits b d then
                if others.isEmpty then some ([], ts)
                else (closingWith fits others ts).map fun (inner, rest) => (t :: inner, rest)
              else none
      | _ => (closingWith fits waiting ts).map fun (inner, rest) => (t :: inner, rest)

section

variable {fits : Bracket → Bracket → Bool} {b d : Bracket} {waiting others : List Bracket}
  {t : Token} {ts inner rest : List Token}

theorem closingWith_opening (opens : t.kind = .opening b) :
    closingWith fits waiting (t :: ts) =
      (closingWith fits (b :: waiting) ts).map fun (inner, rest) => (t :: inner, rest) := by
  rw [closingWith]
  split
  · next c same =>
      cases opens.symm.trans same
      rfl
  · next same => cases opens.symm.trans same
  · next unopened _ => exact absurd opens (unopened b)

theorem closingWith_closing (closes : t.kind = .closing d) :
    closingWith fits (b :: others) (t :: ts) =
      if fits b d then
        if others.isEmpty then some ([], ts)
        else (closingWith fits others ts).map fun (inner, rest) => (t :: inner, rest)
      else none := by
  rw [closingWith]
  split
  · next same => cases closes.symm.trans same
  · next c same =>
      cases closes.symm.trans same
      rfl
  · next unclosed => exact absurd closes (unclosed d)

theorem closingWith_flat (unopened : t.opens = false) (unclosed : t.closes = false) :
    closingWith fits waiting (t :: ts) =
      (closingWith fits waiting ts).map fun (inner, rest) => (t :: inner, rest) := by
  rw [closingWith]
  split
  · next same => simp [opens, same] at unopened
  · next same => simp [closes, same] at unclosed
  · rfl

theorem opens_of (opens : t.kind = .opening b) : t.opens = true ∧ t.closes = false := by
  simp [Token.opens, Token.closes, opens]

theorem closes_of (closes : t.kind = .closing d) : t.opens = false ∧ t.closes = true := by
  simp [Token.opens, Token.closes, closes]

theorem bracket_cases (t : Token) : (∃ b, t.kind = .opening b) ∨ (∃ d, t.kind = .closing d) ∨
    t.opens = false ∧ t.closes = false := by
  obtain ⟨kind, text⟩ := t
  cases kind with
  | opening b => exact .inl ⟨b, rfl⟩
  | closing d => exact .inr (.inl ⟨d, rfl⟩)
  | _ => exact .inr (.inr ⟨rfl, rfl⟩)

/-- A count does what is done by waiting for a bracket of any kind. -/
theorem closing_eq (waiting : List Bracket) (ts : List Token) :
    closing waiting.length ts = closingWith Bracket.anyKind waiting ts := by
  induction ts generalizing waiting with
  | nil => rfl
  | cons t ts ih =>
      obtain ⟨b, opens⟩ | ⟨d, closes⟩ | ⟨unopened, unclosed⟩ := t.bracket_cases
      · rw [closingWith_opening opens, ← ih, closing, (opens_of opens).1, (opens_of opens).2]
        rfl
      · cases waiting with
        | nil =>
            rw [closingWith, closing, (closes_of closes).2, closes]
            rfl
        | cons b others =>
            rw [closingWith_closing closes, closing, (closes_of closes).1, (closes_of closes).2]
            cases others with
            | nil => rfl
            | cons b' others =>
                rw [← ih]
                rfl
      · rw [closingWith_flat unopened unclosed, ← ih, closing, unopened, unclosed]
        rfl

theorem Nested.closingWith_append (nested : Nested fits inner) (waiting : List Bracket)
    (filled : waiting ≠ []) (rest : List Token) :
    closingWith fits waiting (inner ++ rest) =
      (closingWith fits waiting rest).map fun (found, behind) => (inner ++ found, behind) := by
  induction nested generalizing waiting rest with
  | nil => simp
  | flat unopened unclosed _ ih =>
      rw [List.cons_append, closingWith_flat unopened unclosed, ih waiting filled, Option.map_map]
      rfl
  | pair opens closes fit _ _ inside others =>
      obtain ⟨first, more, rfl⟩ := List.exists_cons_of_ne_nil filled
      rw [List.cons_append, List.append_assoc, List.cons_append, closingWith_opening opens,
        inside _ (List.cons_ne_nil _ _), closingWith_closing closes, if_pos fit, List.isEmpty_cons,
        if_neg Bool.false_ne_true, others _ filled, Option.map_map, Option.map_map, Option.map_map]
      simp [Function.comp_def]

theorem exists_nested (found : (closingWith fits (b :: others) ts).isSome) :
    ∃ first t d behind, t.kind = .closing d ∧ fits b d = true ∧ Nested fits first ∧
      ts = first ++ t :: behind := by
  induction h : ts.length using Nat.strongRecOn generalizing ts b others with
  | ind n ih =>
      cases ts with
      | nil => cases found
      | cons t ts =>
          rw [List.length_cons] at h
          obtain ⟨b', opens⟩ | ⟨d, closes⟩ | ⟨unopened, unclosed⟩ := t.bracket_cases
          · rw [closingWith_opening opens, Option.isSome_map] at found
            obtain ⟨inside, c, d, behind, closes, fit, nested, rfl⟩ :=
              ih ts.length (by omega) found rfl
            rw [nested.closingWith_append _ (List.cons_ne_nil _ _), closingWith_closing closes,
              if_pos fit, List.isEmpty_cons, if_neg Bool.false_ne_true, Option.isSome_map,
              Option.isSome_map] at found
            rw [List.length_append, List.length_cons] at h
            obtain ⟨more, last, e, after, ends, fit', rest, rfl⟩ :=
              ih behind.length (by omega) found rfl
            exact ⟨t :: (inside ++ c :: more), last, e, after, ends, fit',
              .pair opens closes fit nested rest, by simp⟩
          · rw [closingWith_closing closes] at found
            split at found
            · next fit => exact ⟨[], t, d, ts, closes, fit, .nil, rfl⟩
            · cases found
          · rw [closingWith_flat unopened unclosed, Option.isSome_map] at found
            obtain ⟨first, last, d, behind, ends, fit, nested, rfl⟩ :=
              ih ts.length (by omega) found rfl
            exact ⟨t :: first, last, d, behind, ends, fit, .flat unopened unclosed nested, rfl⟩

/-- A bracket is closed by the first one behind a nested run, and only if that fits it. -/
theorem closingWith_iff :
    closingWith fits [b] ts = some (inner, rest) ↔
      ∃ t d, t.kind = .closing d ∧ fits b d = true ∧ Nested fits inner ∧ ts = inner ++ t :: rest := by
  have closed {first behind : List Token} {t : Token} {d : Bracket} (closes : t.kind = .closing d)
      (fit : fits b d = true) (nested : Nested fits first) :
      closingWith fits [b] (first ++ t :: behind) = some (first, behind) := by
    rw [nested.closingWith_append _ (List.cons_ne_nil _ _), closingWith_closing closes, if_pos fit]
    simp
  constructor
  · intro found
    obtain ⟨first, t, d, behind, closes, fit, nested, rfl⟩ :=
      exists_nested (Option.isSome_of_eq_some found)
    cases (closed closes fit nested).symm.trans found
    exact ⟨t, d, closes, fit, nested, rfl⟩
  · rintro ⟨t, d, closes, fit, nested, rfl⟩
    exact closed closes fit nested

theorem Nested.mono {looser : Bracket → Bracket → Bool} (nested : Nested fits ts)
    (weaker : ∀ b d, fits b d = true → looser b d = true) : Nested looser ts := by
  induction nested with
  | nil => exact .nil
  | flat unopened unclosed _ ih => exact .flat unopened unclosed ih
  | pair opens closes fit _ _ inside others =>
      exact .pair opens closes (weaker _ _ fit) inside others

end

theorem eq_of_closes {cs : List Char} {t : Token} {d : Bracket} (member : t ∈ scan cs)
    (closes : t.kind = .closing d) : t = ⟨.closing d, [d.closer]⟩ := by
  have single (c : Char) (cs : List Char) :
      (classify c cs).1 = .closing d → c = d.closer ∧ (classify c cs).2 = 0 := by
    fun_cases classify c cs with
    | case1 | case2 | case3 | case4 | case5 | case6 =>
        intro kind
        cases kind <;> exact ⟨rfl, rfl⟩
    | case12 ended | case13 ended =>
        intro kind
        cases ended <;> cases kind
    | _ =>
        intro kind
        cases kind
  fun_induction scan cs with
  | case1 => cases member
  | case2 c cs kind n found ih =>
      rcases List.mem_cons.mp member with rfl | later
      · have ends := single c cs (by rw [found]; exact closes)
        rw [found] at ends
        obtain ⟨rfl, absent⟩ := ends
        simp only at closes absent
        rw [closes, absent, List.take_zero]
      · exact ih later

end Token

end Attribute

namespace Offset

open Attribute

/-- Whether a bracket with a text behind it is closed at an offset of the two: up to there each
bracket that opens is closed by one that fits it, and the one there fits the bracket before the
text. -/
def ClosedAt (fits : Bracket → Bracket → Bool) (b : Bracket) (cs : List Char) (offset : Nat) :
    Prop :=
  ∃ inner d after, Token.scan cs = inner ++ ⟨.closing d, [d.closer]⟩ :: after ∧ fits b d = true ∧
    Token.Nested fits inner ∧ offset = 1 + byteLength (Token.texts inner)

def closingOffset (fits : Bracket → Bracket → Bool) (b : Bracket) (cs : List Char) : Option Nat :=
  (Token.closingWith fits [b] (Token.scan cs)).map fun (inner, _) =>
    1 + byteLength (Token.texts inner)

section

variable {fits : Bracket → Bracket → Bool} {b : Bracket} {cs : List Char} {offset : Nat}

theorem closingOffset_iff : closingOffset fits b cs = some offset ↔ ClosedAt fits b cs offset := by
  constructor
  · intro found
    obtain ⟨⟨inner, after⟩, closed, equal⟩ := Option.map_eq_some_iff.mp found
    obtain ⟨t, d, closes, fit, nested, tokens⟩ := Token.closingWith_iff.mp closed
    have here : t ∈ Token.scan cs := by simp [tokens]
    rw [Token.eq_of_closes here closes] at tokens
    exact ⟨inner, d, after, tokens, fit, nested, equal.symm⟩
  · rintro ⟨inner, d, after, tokens, fit, nested, rfl⟩
    rw [closingOffset, Token.closingWith_iff.mpr ⟨_, d, rfl, fit, nested, tokens⟩]
    rfl

theorem ClosedAt.mono {looser : Bracket → Bracket → Bool} (closed : ClosedAt fits b cs offset)
    (weaker : ∀ b d, fits b d = true → looser b d = true) : ClosedAt looser b cs offset := by
  obtain ⟨inner, d, after, tokens, fit, nested, place⟩ := closed
  exact ⟨inner, d, after, tokens, weaker b d fit, nested.mono weaker, place⟩

theorem findClosing_opener (b : Bracket) (cs : List Char) :
    findClosing (b.opener :: cs) = closingOffset Bracket.anyKind b cs := by
  have count := Token.closing_eq [b] (Token.scan cs)
  rw [List.length_singleton] at count
  rw [findClosing_eq (b.classify_opener cs) b.utf8Size_opener, bracketed_cons (b.classify_opener cs),
    count, closingOffset, Option.map_map]
  rfl

end

end Offset

namespace Tag

open Attribute

/-- The lists that a tag line goes on with, where some of it has been read: the bracket that each of
them starts with and all that stands behind it, up to the end of what has joined the line by the time
the list is closed. -/
inductive Lists : Reading → List (Bracket × List Char) → Reading → Prop
  | none {r : Reading} (hash : r.rest.head? ≠ some '{') (list : r.rest.head? ≠ some '(') :
      Lists r [] r
  | hash {r last : Reading} {lists : List (Bracket × List Char)} {cs inner after : List Char}
      {n : Nat} (bound : n ≤ r.below.length) (opens : joined r.rest (r.below.take n) = '{' :: cs)
      (closed : Token.bracketed ('{' :: cs) = some (inner, after))
      (unclosed : ∀ j < n, Token.bracketed (joined r.rest (r.below.take j)) = .none)
      (others : Lists ⟨joined r.text (r.below.take n), after, r.below.drop n⟩ lists last) :
      Lists r ((.brace, cs) :: lists) last
  | list {r last : Reading} {lists : List (Bracket × List Char)} {cs inner after : List Char}
      (opens : r.rest = '(' :: cs) (closed : Token.bracketed ('(' :: cs) = some (inner, after))
      (others : Lists ⟨r.text, after, r.below⟩ lists last) :
      Lists r ((.paren, cs) :: lists) last

theorem takeBracketed_ok {text rest inner : List Char} {below : List (List Char)} {r : Reading}
    (cut : takeBracketed text rest below = some (inner, r)) :
    ∃ n after, n ≤ below.length ∧
      Token.bracketed (joined rest (below.take n)) = some (inner, after) ∧
      r = ⟨joined text (below.take n), after, below.drop n⟩ ∧
      ∀ j < n, Token.bracketed (joined rest (below.take j)) = none := by
  have alone (cs : List Char) : joined cs [] = cs := List.append_nil cs
  have more (cs next : List Char) (others : List (List Char)) :
      joined cs (next :: others) = joined (cs ++ ' ' :: Text.trim next) others := by
    simp [joined]
  induction below generalizing text rest with
  | nil =>
      obtain ⟨after, closed, rfl⟩ := bracketed_of_takeBracketed cut
      refine ⟨0, after, Nat.le_refl _, ?_, ?_, fun j lt => absurd lt (Nat.not_lt_zero j)⟩
      · rwa [List.take_nil, alone]
      · rw [List.take_nil, List.drop_nil, alone]
  | cons next below ih =>
      rw [takeBracketed] at cut
      split at cut
      · next i after closed =>
          cases cut
          refine ⟨0, after, Nat.zero_le _, ?_, ?_, fun j lt => absurd lt (Nat.not_lt_zero j)⟩
          · rwa [List.take_zero, alone]
          · rw [List.take_zero, List.drop_zero, alone]
      · next unclosed' =>
          obtain ⟨n, after, bound, closed, rfl, unclosed⟩ := ih cut
          refine ⟨n + 1, after, Nat.succ_le_succ bound, ?_, ?_, fun j lt => ?_⟩
          · rwa [List.take_succ_cons, more]
          · rw [List.take_succ_cons, List.drop_succ_cons, more]
          · cases j with
            | zero => rwa [List.take_zero, alone]
            | succ j =>
                rw [List.take_succ_cons, more]
                exact unclosed j (Nat.lt_of_succ_lt_succ lt)

theorem lists_of_takeLists {line : Nat} {r last : Reading} {entries : List AttributeEntry}
    (read : takeLists line r = .ok (entries, last)) : ∃ lists, Lists r lists last := by
  fun_induction takeLists line r generalizing entries last with
  | case1 r brace unbalanced => cases read
  | case2 r brace inner after cut ih =>
      obtain ⟨first, -, rest⟩ := bind_ok read
      obtain ⟨⟨more, final⟩, later, done⟩ := bind_ok rest
      cases done
      obtain ⟨lists, others⟩ := ih later
      obtain ⟨n, behind, bound, closed, rfl, unclosed⟩ := takeBracketed_ok cut
      obtain ⟨cs, opens⟩ := List.head?_eq_some_iff.mp brace
      have whole : joined r.rest (r.below.take n) = '{' :: joined cs (r.below.take n) := by
        rw [opens]
        rfl
      rw [whole] at closed
      exact ⟨_, .hash bound whole closed unclosed others⟩
  | case3 r paren unbalanced => cases read
  | case4 r paren inner after cut ih =>
      obtain ⟨first, -, rest⟩ := bind_ok read
      obtain ⟨⟨more, final⟩, later, done⟩ := bind_ok rest
      cases done
      obtain ⟨lists, others⟩ := ih later
      obtain ⟨behind, closed, rfl⟩ := bracketed_of_takeBracketed cut
      obtain ⟨cs, opens⟩ := List.head?_eq_some_iff.mp paren
      rw [opens] at closed
      exact ⟨_, .list opens closed others⟩
  | case5 r brace paren =>
      cases read
      exact ⟨[], .none brace paren⟩

/-- Each list is closed, as far as a count can tell. -/
theorem Lists.closed {r last : Reading} {lists : List (Bracket × List Char)}
    (taken : Lists r lists last) :
    ∀ list ∈ lists, ∃ offset, Offset.ClosedAt Bracket.anyKind list.1 list.2 offset := by
  have counted (b : Bracket) (cs : List Char) {inner after : List Char}
      (closed : Token.bracketed (b.opener :: cs) = some (inner, after)) :
      ∃ offset, Offset.ClosedAt Bracket.anyKind b cs offset := by
    refine ⟨1 + Offset.byteLength inner, Offset.closingOffset_iff.mp ?_⟩
    rw [← Offset.findClosing_opener, Offset.findClosing_eq (b.classify_opener cs) b.utf8Size_opener,
      closed]
    rfl
  induction taken with
  | none => exact List.forall_mem_nil _
  | hash _ _ closed _ _ ih => exact List.forall_mem_cons.mpr ⟨counted .brace _ closed, ih⟩
  | list _ closed _ ih => exact List.forall_mem_cons.mpr ⟨counted .paren _ closed, ih⟩

/-- A bracket is closed where a count of the brackets of all kinds comes down to none. That is a
bracket of its kind, with brackets between that are closed by their kinds, exactly if waiting for the
kind of every bracket comes to the same place; and where that ends at all, the count ends there. A tag
is read only if all its lists are closed so far as the count can tell. -/
theorem brackets_counted (b : Bracket) (cs : List Char) (offset line : Nat) (text : List Char)
    (below : List (List Char)) :
    (Offset.findClosing (b.opener :: cs) = some offset ↔
      Offset.ClosedAt Bracket.anyKind b cs offset) ∧
    (Offset.ClosedAt Bracket.sameKind b cs offset ↔
      Offset.findClosing (b.opener :: cs) = some offset ∧
        Offset.closingOffset Bracket.sameKind b cs = some offset) ∧
    ∀ t rest, Tag.read line text below = .ok (t, rest) →
      ∃ name unnamed shorthands unread lists last,
        takeName line text = .ok (name, unnamed) ∧
        takeShorthands line unnamed = .ok (shorthands, unread) ∧
        Lists ⟨text, unread, below⟩ lists last ∧ last.below = rest ∧
        ∀ list ∈ lists, ∃ offset, Offset.ClosedAt Bracket.anyKind list.1 list.2 offset := by
  have counted : Offset.findClosing (b.opener :: cs) = some offset ↔
      Offset.ClosedAt Bracket.anyKind b cs offset := by
    rw [Offset.findClosing_opener, Offset.closingOffset_iff]
  refine ⟨counted, ?_, fun t rest read => ?_⟩
  · rw [counted, Offset.closingOffset_iff]
    exact ⟨fun closed => ⟨closed.mono fun _ _ _ => rfl, closed⟩, And.right⟩
  · obtain ⟨⟨name, unnamed⟩, first, read⟩ := bind_ok read
    obtain ⟨⟨shorthands, unread⟩, second, read⟩ := bind_ok read
    obtain ⟨⟨entries, r⟩, third, read⟩ := bind_ok read
    obtain ⟨lists, taken⟩ := lists_of_takeLists third
    have left : r.below = rest := by
      simp only at read
      split at read
      · split at read
        · cases read
        · cases read
          rfl
      · cases read
    exact ⟨name, unnamed, shorthands, unread, lists, r, first, second, taken, left, taken.closed⟩

theorem brackets_counted_mixed :
    let cs := ":a => 'x')".toList
    let text := '%' :: 'p' :: '{' :: cs
    Tag.read 1 text [] = .ok (⟨"p", [.fixed "a" (.text "x")], false, false, false, none⟩, []) ∧
      (∃ name unnamed shorthands unread lists last,
        takeName 1 text = .ok (name, unnamed) ∧
        takeShorthands 1 unnamed = .ok (shorthands, unread) ∧
        Lists ⟨text, unread, []⟩ lists last ∧ last.below = [] ∧
        ∀ list ∈ lists, ∃ offset, Offset.ClosedAt Bracket.anyKind list.1 list.2 offset) ∧
      Offset.ClosedAt Bracket.anyKind .brace cs 10 ∧
      ¬ Offset.ClosedAt Bracket.sameKind .brace cs 10 := by
  intro cs text
  have read : Tag.read 1 text [] =
      .ok (⟨"p", [.fixed "a" (.text "x")], false, false, false, none⟩, []) := by decide +kernel
  obtain ⟨counted, kinds, tags⟩ := brackets_counted .brace cs 10 1 text []
  refine ⟨read, tags _ _ read, counted.mp (by decide +kernel), ?_⟩
  rw [kinds]
  decide +kernel

end Tag

/-- A list in braces ends at a parenthesis, if no brace stands before it. -/
theorem Template.brace_closed_by_paren :
    Offset.findClosing "\x7b:a => 'x')".toList = some 10 ∧
    Offset.closingOffset Attribute.Bracket.sameKind .brace ":a => 'x')".toList = none ∧
    (Template.compile "%p\x7b:a => 'x')" .standard).map
        (fun t => (t.run .variables (.new .echo)).1) =
      .ok (.ok "<p a='x'></p>\n") := by
  decide +kernel

end Haml
