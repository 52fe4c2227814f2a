import Haml.Proofs.Region
/-! Refusals: the failures that the reading of a line can end in, each of which names a line. Nothing
else that is read shows the number of its line. -/

namespace Haml

inductive Error.OfTag (line : Nat) : Error → Prop
  | name (tag : String) : OfTag line (.invalidTag line tag)
  | shorthand (sigil : Char) : OfTag line (.unknownShorthand line sigil)
  | attribute (fault : AttributeFault) : OfTag line (.attributeSyntax line fault)
  | interpolation : OfTag line (.unterminatedInterpolation line)
  | content : OfTag line (.illegalNesting line .selfClosingContent)

inductive Error.OfIndent (line : Nat) : Error → Prop
  | jump (jump : Jump) : OfIndent line (.inconsistentIndentation line jump)
  | mixed : OfIndent line (.mixedIndentation line)
  | unit (fault : IndentFault) : OfIndent line (.illegalIndentation line fault)

namespace Attribute

variable (line : Nat)

theorem tokenEntry_fails (name : String) (t : Token) :
    Fails (Error.OfTag line) (tokenEntry line name t) := by
  unfold tokenEntry
  dsimp only
  split
  · split
    · exact .error .interpolation
    · split
      · exact .ok _
      · exact .error (.attribute _)
  · split
    · exact .ok _
    · exact .ok _
    · exact .error (.attribute _)
    · exact .ok _

theorem valueEntry_fails (name : String) (value : List Token) :
    Fails (Error.OfTag line) (valueEntry line name value) := by
  unfold valueEntry
  split
  · exact tokenEntry_fails line name _
  · exact .ok _

theorem hashEntry_fails (part : List Token) :
    Fails (Error.OfTag line) (hashEntry line part) := by
  unfold hashEntry
  split
  · exact .ok _
  · split
    · exact .error (.attribute _)
    · split
      · exact .error (.attribute _)
      · exact valueEntry_fails line _ _
    · exact .ok _

theorem ofHash_fails (inner : List Char) : Fails (Error.OfTag line) (ofHash line inner) := by
  apply (Fails.mapM (hashEntry_fails line) _).bind
  intro entries
  exact .ok _

theorem ofTokens_fails (ts : List Token) : Fails (Error.OfTag line) (ofTokens line ts) := by
  fun_induction ofTokens line ts with
  | case1 => exact .ok _
  | case2 t ts blank ih => exact ih
  | case3 t ts text other => exact .error (.attribute _)
  | case4 t ts text name written absent => exact .ok _
  | case5 t ts text name written s rest more equals found empty => exact .error (.attribute _)
  | case6 t ts text name written s rest more equals found filled ih =>
      apply (valueEntry_fails line _ _).bind
      intro entry
      exact ih.bind fun entries => .ok _
  | case7 t ts text name written s rest more flag ih => exact ih.bind fun entries => .ok _

end Attribute

namespace Tag

variable (line : Nat)

theorem takeName_fails (text : List Char) : Fails (Error.OfTag line) (takeName line text) := by
  unfold takeName
  split
  · exact .ite (.error (.name _)) (.ok _)
  · exact .ok _

theorem takeShorthands_fails (text : List Char) :
    Fails (Error.OfTag line) (takeShorthands line text) := by
  fun_induction takeShorthands line text with
  | case1 => exact .ok _
  | case2 c cs absent => exact .ok _
  | case3 c cs name found value empty => exact .error (.shorthand c)
  | case4 c cs name found value filled ih => exact ih.bind fun entries => .ok _

theorem takeLists_fails (r : Reading) : Fails (Error.OfTag line) (takeLists line r) := by
  fun_induction takeLists line r with
  | case1 r brace unbalanced => exact .error (.attribute _)
  | case2 r brace inner after cut ih =>
      apply (Attribute.ofHash_fails line inner).bind
      intro entries
      exact ih.bind fun more => .ok _
  | case3 r paren unbalanced => exact .error (.attribute _)
  | case4 r paren inner after cut ih =>
      apply (Attribute.ofTokens_fails line _).bind
      intro entries
      exact ih.bind fun more => .ok _
  | case5 r => exact .ok _

/-- A tag is refused for one of a few reasons, on its own line. -/
theorem read_fails (text : List Char) (below : List (List Char)) :
    Fails (Error.OfTag line) (Tag.read line text below) := by
  apply (takeName_fails line text).bind
  rintro ⟨name, unnamed⟩
  apply (takeShorthands_fails line unnamed).bind
  rintro ⟨shorthands, unread⟩
  apply (takeLists_fails line _).bind
  rintro ⟨entries, r⟩
  dsimp only
  split
  · exact .ite (.error .content) (.ok _)
  · exact .error (.name _)

end Tag

section Numbers

variable (line other : Nat)

namespace Attribute

theorem tokenEntry_together (name : String) (t : Token) :
    Together Eq (tokenEntry line name t) (tokenEntry other name t) := by
  unfold tokenEntry
  dsimp only
  split
  · split
    · exact .error _ _
    · split
      · exact .ok rfl
      · exact .error _ _
  · split
    · exact .ok rfl
    · exact .ok rfl
    · exact .error _ _
    · exact .ok rfl

theorem valueEntry_together (name : String) (value : List Token) :
    Together Eq (valueEntry line name value) (valueEntry other name value) := by
  unfold valueEntry
  split
  · exact tokenEntry_together line other name _
  · exact .ok rfl

theorem hashEntry_together (part : List Token) :
    Together Eq (hashEntry line part) (hashEntry other part) := by
  unfold hashEntry
  split
  · exact .ok rfl
  · split
    · exact .error _ _
    · split
      · exact .error _ _
      · exact valueEntry_together line other _ _
    · exact .ok rfl

theorem ofHash_together (inner : List Char) :
    Together Eq (ofHash line inner) (ofHash other inner) := by
  apply (Together.mapM (hashEntry_together line other) _).bind
  rintro entries _ rfl
  exact .ok rfl

theorem ofTokens_together (ts : List Token) :
    Together Eq (ofTokens line ts) (ofTokens other ts) := by
  fun_induction ofTokens line ts with
  | case1 =>
      rw [ofTokens]
      exact .ok rfl
  | case2 t ts blank ih =>
      rw [ofTokens, if_pos blank]
      exact ih
  | case3 t ts text other =>
      rw [ofTokens, if_neg text, if_pos other]
      exact .error _ _
  | case4 t ts text name written absent =>
      rw [ofTokens, if_neg text, if_neg name]
      dsimp only
      split
      · exact .ok rfl
      · next s rest more =>
          rw [absent] at more
          cases more
  | case5 t ts text name written s rest more equals found empty =>
      rw [ofTokens, if_neg text, if_neg name]
      dsimp only
      split
      · next absent =>
          rw [absent] at more
          cases more
      · next s' rest' same =>
          cases more.symm.trans same
          rw [if_pos equals, if_pos empty]
          exact .error _ _
  | case6 t ts text name written s rest more equals found filled ih =>
      rw [ofTokens, if_neg text, if_neg name]
      dsimp only
      split
      · next absent =>
          rw [absent] at more
          cases more
      · next s' rest' same =>
          cases more.symm.trans same
          rw [if_pos equals, if_neg filled]
          apply (valueEntry_together line other written found.1).bind
          rintro entry _ rfl
          apply ih.bind
          rintro entries _ rfl
          exact .ok rfl
  | case7 t ts text name written s rest more flag ih =>
      rw [ofTokens.eq_def other (t :: ts)]
      dsimp only
      rw [if_neg text, if_neg name]
      split
      · next absent =>
          rw [absent] at more
          cases more
      · next s' rest' same =>
          cases more.symm.trans same
          rw [if_neg flag]
          apply ih.bind
          rintro entries _ rfl
          exact .ok rfl

end Attribute

namespace Tag

theorem takeName_together (text : List Char) :
    Together Eq (takeName line text) (takeName other text) := by
  unfold takeName
  split
  · exact .ite (.error _ _) (.ok rfl)
  · exact .ok rfl

theorem takeShorthands_together (text : List Char) :
    Together Eq (takeShorthands line text) (takeShorthands other text) := by
  fun_induction takeShorthands line text with
  | case1 =>
      rw [takeShorthands]
      exact .ok rfl
  | case2 c cs absent =>
      rw [takeShorthands, absent]
      exact .ok rfl
  | case3 c cs name found value empty =>
      rw [takeShorthands, found]
      dsimp only
      rw [if_pos empty]
      exact .error _ _
  | case4 c cs name found value filled ih =>
      rw [takeShorthands.eq_def other (c :: cs)]
      dsimp only
      rw [found]
      dsimp only
      rw [if_neg filled]
      apply ih.bind
      rintro p _ rfl
      exact .ok rfl

end Tag

theorem Indent.measure_together (unit : Option Indent) (lead : List Char) :
    Together Eq (measure unit lead line) (measure unit lead other) := by
  unfold measure
  refine .ite (.ok rfl) (.ite (.error _ _) ?_)
  generalize (if 0 < lead.countP (· == '\t') then tab
    else spaces (lead.length - lead.countP (· == '\t'))) = found
  dsimp only
  split
  · exact .ok rfl
  · exact .ok rfl
  · exact .ok rfl
  · exact .ite (.ok rfl) (.error _ _)
  · exact .error _ _

end Numbers

theorem Indent.measure_fails (unit : Option Indent) (lead : List Char) (line : Nat) :
    Fails (Error.OfIndent line) (measure unit lead line) := by
  unfold measure
  refine .ite (.ok _) (.ite (.error .mixed) ?_)
  generalize (if 0 < lead.countP (· == '\t') then tab
    else spaces (lead.length - lead.countP (· == '\t'))) = found
  dsimp only
  split
  · exact .ok _
  · exact .ok _
  · exact .ok _
  · exact .ite (.ok _) (.error (.unit _))
  · exact .error (.unit _)

theorem Line.read_fails (unit : Option Indent) (number : Nat) (raw : List Char) :
    Fails (Error.OfIndent number) (Line.read unit number raw) :=
  (Indent.measure_fails unit _ number).bind fun _ => .ok _

def Line.IsFirstText (next : Nat) (below : List (List Char)) (line : Nat) : Prop :=
  ∃ first others, below.dropWhile Text.allBlank = first :: others ∧
    line = next + (below.takeWhile Text.allBlank).length

theorem Line.takeBlock_fails (unit : Option Indent) (depth next : Nat)
    (below : List (List Char)) :
    Fails (fun e => ∃ line, IsFirstText next below line ∧ e.OfIndent line)
      (takeBlock unit depth next below) := by
  unfold takeBlock
  split
  · exact .ok _
  · next first others found =>
      have place : IsFirstText next below (next + (below.takeWhile Text.allBlank).length) :=
        ⟨first, others, found, rfl⟩
      refine .ite (.ok _) (.bind ?_ ?_)
      · intro e failed
        exact ⟨_, place, Indent.measure_fails unit _ _ e failed⟩
      · rintro ⟨measured, settled⟩
        exact .ite (.ok _) (.ite (.error ⟨_, place, .jump _⟩) (.ok _))

/-- A header is refused for its tag, its filter's name, or the indentation of its block. -/
theorem Header.read_fails (unit : Option Indent) (line : Line) (below : List (List Char)) :
    Fails (fun e => e.OfTag line.number ∨ (∃ name, e = .invalidFilterName line.number name) ∨
      ∃ other, Line.IsFirstText (line.number + 1) below other ∧ e.OfIndent other)
      (Header.read unit line below) := by
  have tagged : Fails (Error.OfTag line.number)
      (Tag.read line.number line.text below >>= fun p =>
        .ok (Header.mk (.tag p.1) (below.length - p.2.length) unit)) :=
    (Tag.read_fails line.number line.text below).bind fun _ => .ok _
  unfold Header.read
  split
  · exact fun e failed => .inl (tagged e failed)
  · exact fun e failed => .inl (tagged e failed)
  · exact fun e failed => .inl (tagged e failed)
  · exact .ok _
  · exact .ok _
  · exact .ok _
  · exact .ok _
  · exact .ok _
  · exact .ok _
  · exact .ok _
  · refine .ite (.error (.inr (.inl ⟨_, rfl⟩))) (.bind ?_ fun block => .ok _)
    intro e failed
    exact .inr (.inr (Line.takeBlock_fails unit line.depth _ below e failed))
  · exact .ok _
  · exact .ok _

end Haml
