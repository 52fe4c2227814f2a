import Haml.Proofs.Refusal
/-! Headers on their own: what a line says wherever it stands, if it says so without the lines
below. -/

namespace Haml

namespace Tag

theorem takeBracketed_below {text rest inner after : List Char}
    (closed : Attribute.Token.bracketed rest = some (inner, after)) (below : List (List Char)) :
    takeBracketed text rest below = some (inner, ⟨text, after, below⟩) := by
  cases below with
  | nil =>
      rw [takeBracketed, closed]
      rfl
  | cons next below => rw [takeBracketed, closed]

theorem bracketed_of_takeBracketed {text rest inner : List Char} {r : Reading}
    (cut : takeBracketed text rest [] = some (inner, r)) :
    ∃ after, Attribute.Token.bracketed rest = some (inner, after) ∧ r = ⟨text, after, []⟩ := by
  obtain ⟨⟨inside, after⟩, closed, equal⟩ := Option.map_eq_some_iff.mp cut
  cases equal
  exact ⟨after, closed, rfl⟩

/-- Lists that close without the lines below leave those alone. -/
theorem takeLists_below {line : Nat} {r last : Reading} {entries : List AttributeEntry}
    (read : takeLists line r = .ok (entries, last)) (alone : r.below = []) (other : Nat)
    (below : List (List Char)) :
    takeLists other { r with below := below } = .ok (entries, { last with below := below }) := by
  fun_induction takeLists line r generalizing entries last with
  | case1 r brace unbalanced => cases read
  | case2 r brace inner after cut ih =>
      obtain ⟨first, hash, rest⟩ := bind_ok read
      obtain ⟨⟨more, final⟩, others, done⟩ := bind_ok rest
      cases done
      rw [alone] at cut
      obtain ⟨unread, closed, rfl⟩ := bracketed_of_takeBracketed cut
      rw [takeLists]
      simp only [brace]
      split
      · next unbalanced =>
          rw [takeBracketed_below closed] at unbalanced
          cases unbalanced
      · next inside behind here =>
          rw [takeBracketed_below closed] at here
          cases here
          rw [(Attribute.ofHash_together line other inner).of_ok hash]
          have rest := ih others rfl
          simp only at rest
          simp only [bind, Except.bind, rest]
          rfl
  | case3 r paren unbalanced => cases read
  | case4 r paren inner after cut ih =>
      obtain ⟨first, list, rest⟩ := bind_ok read
      obtain ⟨⟨more, final⟩, others, done⟩ := bind_ok rest
      cases done
      obtain ⟨unread, closed, rfl⟩ := bracketed_of_takeBracketed cut
      rw [takeLists]
      simp only [paren]
      split
      · next unbalanced =>
          rw [takeBracketed_below closed] at unbalanced
          cases unbalanced
      · next inside behind here =>
          rw [takeBracketed_below closed] at here
          cases here
          rw [Attribute.ofList, (Attribute.ofTokens_together line other _).of_ok list]
          have rest := ih others alone
          simp only at rest
          simp only [bind, Except.bind, rest]
          rfl
  | case5 r brace paren =>
      cases read
      rw [takeLists]
      split
      · next here => exact absurd here brace
      · next here => exact absurd here paren
      · rfl

theorem read_below {line : Nat} {text : List Char} {t : Tag} {rest : List (List Char)}
    (read : Tag.read line text [] = .ok (t, rest)) (other : Nat) (below : List (List Char)) :
    Tag.read other text below = .ok (t, below) := by
  obtain ⟨⟨name, unnamed⟩, first, read⟩ := bind_ok read
  obtain ⟨⟨shorthands, unread⟩, second, read⟩ := bind_ok read
  obtain ⟨⟨entries, r⟩, third, read⟩ := bind_ok read
  rw [Tag.read, (takeName_together line other text).of_ok first]
  simp only [bind, Except.bind]
  rw [(takeShorthands_together line other unnamed).of_ok second]
  have lists := takeLists_below third rfl other below
  simp only at lists read ⊢
  rw [lists]
  simp only
  split at read
  · split at read
    · cases read
    · next opened =>
        cases read
        rw [if_neg opened]
        rfl
  · cases read

end Tag

namespace Header

def alone (text : List Char) : Except Error Header := Header.read none ⟨1, 0, text⟩ []

def among (unit : Option Indent) (number depth : Nat) (below : List (List Char)) :
    NodeKind → Except Error Header
  | .filter name _ => do
      let block ← Line.takeBlock unit depth (number + 1) below
      let body := String.ofList (List.intercalate ['\n'] block.lines)
      return ⟨.filter name body, block.taken, block.unit⟩
  | .silentComment => .ok ⟨.silentComment, Line.skipCount unit depth below, unit⟩
  | kind => .ok ⟨kind, 0, unit⟩

theorem read_eq_among {text : List Char} {header : Header} (read : alone text = .ok header)
    (unit : Option Indent) (number depth : Nat) (below : List (List Char)) :
    Header.read unit ⟨number, depth, text⟩ below = among unit number depth below header.kind := by
  unfold alone at read
  have tagged (read : (Tag.read 1 text [] >>= fun p =>
      .ok (Header.mk (.tag p.1) (0 - p.2.length) none)) = .ok header) :
      (Tag.read number text below >>= fun p =>
        .ok (Header.mk (.tag p.1) (below.length - p.2.length) unit)) =
      among unit number depth below header.kind := by
    obtain ⟨⟨t, rest⟩, tag, done⟩ := bind_ok read
    cases done
    rw [Tag.read_below tag number below]
    simp only [bind, Except.bind, Nat.sub_self]
    rfl
  unfold Header.read at read ⊢
  simp only [Line.sigil] at read ⊢
  split at read
  · exact tagged read
  · exact tagged read
  · exact tagged read
  · cases read
    rfl
  · cases read
    rfl
  · cases read
    rfl
  · cases read
    rfl
  · cases read
    rfl
  · cases read
    rfl
  · cases read
    rfl
  · split at read
    · cases read
    · next named =>
        rw [if_neg named]
        obtain ⟨block, -, done⟩ := bind_ok read
        cases done
        rfl
  · cases read
    rfl
  · cases read
    rfl

end Header

end Haml
