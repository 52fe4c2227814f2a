import Haml.Compile
import Haml.Proofs.Indented
import Haml.Proofs.Located.Lines
/-! Texts in one line: what is written in one line of the output holds no line feed, in every document
that can be read. -/

namespace Haml

/-- Whether the texts of a node that are written in one line stand in one. -/
def NodeKind.OneLine : NodeKind → Prop
  | .tag t => '\n' ∉ t.name.toList
  | .text raw => '\n' ∉ raw.toList
  | .comment c =>
      (∀ text ∈ c.text, '\n' ∉ text.toList) ∧ ∀ condition ∈ c.condition, '\n' ∉ condition.toList
  | .script _ | .output .. | .silentComment | .filter .. | .doctype _ => True

instance (kind : NodeKind) : Decidable kind.OneLine :=
  match kind with
  | .tag t => inferInstanceAs (Decidable ('\n' ∉ t.name.toList))
  | .text raw => inferInstanceAs (Decidable ('\n' ∉ raw.toList))
  | .comment c => inferInstanceAs (Decidable ((∀ text ∈ c.text, '\n' ∉ text.toList) ∧
      ∀ condition ∈ c.condition, '\n' ∉ condition.toList))
  | .script _ | .output .. | .silentComment | .filter .. | .doctype _ =>
      inferInstanceAs (Decidable True)

namespace Text

theorem not_mem_append {s t : String} {c : Char} (first : c ∉ s.toList) (second : c ∉ t.toList) :
    c ∉ (s ++ t).toList := by
  rw [String.toList_append]
  exact fun member => (List.mem_append.mp member).elim first second

theorem not_mem_ofList {cs : List Char} {c : Char} (absent : c ∉ cs) :
    c ∉ (String.ofList cs).toList := by
  rwa [String.toList_ofList]

end Text

namespace Interpolation

theorem literals_flush (literal : List Char) (code : String) (segments : List Segment) :
    Compile.literals (flush literal ++ .expression code :: segments) =
      Compile.literals (flush literal) ++ Compile.literals segments := by
  unfold flush
  split <;> rfl

theorem not_mem_flush {literal : List Char} (whole : '\n' ∉ literal) :
    ∀ text ∈ Compile.literals (flush literal), '\n' ∉ text.toList := by
  intro text member
  unfold flush at member
  split at member
  · cases member
  · obtain rfl := List.mem_singleton.mp member
    rwa [String.toList_ofList]

theorem not_mem_literals {literal cs : List Char} {segments : List Segment}
    (split : splitFrom literal cs = some segments) (before : '\n' ∉ literal) (whole : '\n' ∉ cs) :
    ∀ text ∈ Compile.literals segments, '\n' ∉ text.toList := by
  fun_induction splitFrom literal cs generalizing segments with
  | case1 literal rest ih => exact ih split (by simp [before]) (by simp_all)
  | case2 => cases split
  | case3 literal rest code after closes ih =>
      obtain ⟨more, inner, rfl⟩ := Option.map_eq_some_iff.mp split
      rw [closing_append closes] at whole
      rw [literals_flush]
      refine List.forall_mem_append.mpr ⟨not_mem_flush before, ?_⟩
      exact ih inner List.not_mem_nil (by simp_all)
  | case4 literal c rest _ _ ih => exact ih split (by simp_all) (by simp_all)
  | case5 literal =>
      cases split
      exact not_mem_flush before

end Interpolation

namespace Doctype

open Text (not_mem_append not_mem_ofList)

theorem not_mem_declare {identifier url : String} (first : '\n' ∉ identifier.toList)
    (second : '\n' ∉ url.toList) : '\n' ∉ (declare identifier url).toList := by
  have start : '\n' ∉ "<!DOCTYPE html PUBLIC \"".toList := not_mem_ofList (by decide)
  have between : '\n' ∉ "\" \"".toList := not_mem_ofList (by decide)
  have stop : '\n' ∉ "\">".toList := not_mem_ofList (by decide)
  exact not_mem_append (not_mem_append (not_mem_append (not_mem_append start first) between) second)
    stop

theorem not_mem_html4 (kind : String) : '\n' ∉ (html4 kind).toList := by
  unfold html4
  split <;>
    exact not_mem_declare (not_mem_ofList (by decide +kernel)) (not_mem_ofList (by decide +kernel))

theorem not_mem_xhtml (kind : String) : '\n' ∉ (xhtml kind).toList := by
  unfold xhtml
  split
  · exact not_mem_ofList (by decide)
  all_goals
    exact not_mem_declare (not_mem_ofList (by decide +kernel)) (not_mem_ofList (by decide +kernel))

theorem not_mem_prolog {wrapper : Char} (plain : wrapper ≠ '\n') {encoding : String}
    (whole : '\n' ∉ encoding.toList) : '\n' ∉ (prolog wrapper encoding).toList := by
  have quote : '\n' ∉ (String.singleton wrapper).toList := by
    rw [String.toList_singleton]
    exact fun member => plain (List.mem_singleton.mp member).symm
  have start : '\n' ∉ "<?xml version=".toList := not_mem_ofList (by decide)
  have version : '\n' ∉ "1.0".toList := not_mem_ofList (by decide)
  have before : '\n' ∉ " encoding=".toList := not_mem_ofList (by decide)
  have stop : '\n' ∉ " ?>".toList := not_mem_ofList (by decide)
  have numbered := not_mem_append (not_mem_append (not_mem_append start quote) version) quote
  have encoded := not_mem_append (not_mem_append (not_mem_append numbered before) quote) whole
  exact not_mem_append (not_mem_append encoded quote) stop

theorem not_mem_text {argument text : String} {format : Format} {wrapper : Char}
    (plain : wrapper ≠ '\n') (line : text? argument format wrapper = some text) :
    '\n' ∉ text.toList := by
  unfold text? at line
  dsimp only at line
  split at line
  · split at line
    · cases line
    · cases line
      refine not_mem_prolog plain ?_
      cases found : ((Text.words argument.toList).map String.ofList)[1]? with
      | none => decide
      | some encoding =>
          obtain ⟨word, among, rfl⟩ := List.mem_map.mp (List.mem_of_getElem? found)
          rw [Option.getD_some, String.toList_ofList]
          intro inside
          cases Text.of_mem_splitOnP (List.mem_filter.mp among).1 '\n' inside
  · cases format <;> cases line
    · exact not_mem_xhtml _
    · exact not_mem_html4 _
    · decide

end Doctype

namespace Compile

theorem commentStart_whole {c : Comment} (plain : (NodeKind.comment c).OneLine) :
    '\n' ∉ (commentStart c).toList := by
  unfold commentStart
  split
  · next condition given =>
      have whole := plain.2 condition given
      simp [whole]
  · decide

theorem commentEnd_whole (c : Comment) : '\n' ∉ (commentEnd c).toList := by
  unfold commentEnd
  split <;> decide

theorem commentLine_whole {c : Comment} {text : String} (plain : (NodeKind.comment c).OneLine)
    (written : c.text = some text) :
    '\n' ∉ (commentStart c ++ " " ++ text ++ " " ++ commentEnd c).toList := by
  simp [commentStart_whole plain, commentEnd_whole c, plain.1 text written]

end Compile

namespace Text

theorem mem_of_mem_trimEnd {c : Char} {cs : List Char} (member : c ∈ trimEnd cs) : c ∈ cs := by
  have dropped := (List.dropWhile_sublist isBlank (l := cs.reverse)).mem (List.mem_reverse.mp member)
  exact List.mem_reverse.mp dropped

theorem mem_of_mem_trim {c : Char} {cs : List Char} (member : c ∈ trim cs) : c ∈ cs :=
  (List.dropWhile_sublist isBlank).mem (mem_of_mem_trimEnd member)

theorem infix_splitOnP (p : Char → Bool) (cs : List Char) :
    (∀ first ∈ (cs.splitOnP p).head?, first <+: cs) ∧ ∀ raw ∈ cs.splitOnP p, raw <:+: cs := by
  induction cs with
  | nil => simp
  | cons c cs ih =>
      obtain ⟨front, each⟩ := ih
      obtain ⟨first, rest, pieces⟩ := List.exists_cons_of_ne_nil (List.splitOnP_ne_nil p cs)
      rw [pieces] at front each
      have later (raw : List Char) (member : raw ∈ first :: rest) : raw <:+: c :: cs :=
        (each raw member).trans (List.infix_cons (List.infix_refl cs))
      rw [List.splitOnP_cons_eq_if_modifyHead, pieces]
      split
      · have start : [] <+: c :: cs := ⟨c :: cs, rfl⟩
        refine ⟨?_, List.forall_mem_cons.mpr ⟨start.isInfix, later⟩⟩
        rintro _ ⟨⟩
        exact start
      · have start : c :: first <+: c :: cs := (List.prefix_cons_inj c).mpr (front first rfl)
        refine ⟨?_, List.forall_mem_cons.mpr ⟨start.isInfix, ?_⟩⟩
        · rintro _ ⟨⟩
          exact start
        · exact fun raw member => later raw (List.mem_cons_of_mem first member)

theorem infix_of_mem_splitOnP {p : Char → Bool} {cs raw : List Char}
    (member : raw ∈ cs.splitOnP p) : raw <:+: cs :=
  (infix_splitOnP p cs).2 raw member

theorem splitOnce_append {sep cs before after : List Char}
    (cut : splitOnce sep cs = some (before, after)) : cs = before ++ sep ++ after := by
  induction cs generalizing before with
  | nil =>
      rw [splitOnce] at cut
      split at cut
      · next empty =>
          cases cut
          rw [List.isEmpty_iff.mp empty]
          rfl
      · cases cut
  | cons c cs ih =>
      rw [splitOnce] at cut
      split at cut
      · next rest found =>
          cases cut
          exact (List.isPrefixOf?_eq_some_iff_append_eq.mp found).symm
      · obtain ⟨⟨front, back⟩, inner, same⟩ := Option.map_eq_some_iff.mp cut
        cases same
        rw [ih inner]
        rfl

end Text

namespace Header

theorem not_mem_nonEmpty {cs : List Char} (whole : '\n' ∉ cs) :
    ∀ text ∈ nonEmpty cs, '\n' ∉ text.toList := by
  intro text given
  unfold nonEmpty at given
  split at given
  · cases given
  · cases given
    exact Text.not_mem_ofList whole

theorem oneLine_comment {rest : List Char} (whole : '\n' ∉ rest) :
    (NodeKind.comment (comment rest)).OneLine := by
  have plain : (NodeKind.comment ⟨none, nonEmpty rest⟩).OneLine :=
    ⟨not_mem_nonEmpty whole, nofun⟩
  unfold comment
  split
  · next inner =>
      split
      · next condition text cut =>
          rw [Text.splitOnce_append cut] at whole
          simp only [List.mem_cons, List.mem_append, not_or] at whole
          obtain ⟨-, ⟨before, -⟩, after⟩ := whole
          refine ⟨not_mem_nonEmpty (mt Text.mem_of_mem_trim after), ?_⟩
          rintro _ ⟨⟩
          exact Text.not_mem_ofList before
      · exact plain
  · exact plain

theorem oneLine_tag {number : Nat} {text : List Char} {below rest : List (List Char)} {t : Tag}
    (read : Tag.read number text below = .ok (t, rest)) : (NodeKind.tag t).OneLine := by
  obtain ⟨⟨name, unnamed⟩, first, read⟩ := bind_ok read
  obtain ⟨⟨shorthands, unread⟩, -, read⟩ := bind_ok read
  obtain ⟨⟨entries, r⟩, -, read⟩ := bind_ok read
  have named : '\n' ∉ name.toList := by
    unfold Tag.takeName at first
    split at first
    · simp only at first
      split at first
      · cases first
      · cases first
        rw [String.toList_ofList]
        intro inside
        cases List.mem_takeWhile_imp inside
    · cases first
      decide
  simp only at read
  split at read
  · split at read
    · cases read
    · cases read
      exact named
  · cases read

theorem read_oneLine {unit : Option Indent} {line : Line} {below : List (List Char)}
    {header : Header} (whole : '\n' ∉ line.text) (read : Header.read unit line below = .ok header) :
    header.kind.OneLine := by
  have tagged (read : (Tag.read line.number line.text below >>= fun p =>
      .ok (Header.mk (.tag p.1) (below.length - p.2.length) unit)) = .ok header) :
      header.kind.OneLine := by
    obtain ⟨⟨t, left⟩, tag, rest⟩ := bind_ok read
    cases rest
    exact oneLine_tag tag
  have dropped (n : Nat) : '\n' ∉ line.text.drop n := mt List.mem_of_mem_drop whole
  have plain {cs : List Char} (whole : '\n' ∉ cs) : (NodeKind.text (String.ofList cs)).OneLine :=
    Text.not_mem_ofList whole
  unfold Header.read at read
  cases sigil : line.sigil <;> simp only [sigil] at read
  case tag | cssClass | cssId => exact tagged read
  case output | escapedOutput | unescapedOutput | script | silentComment | doctype =>
    cases read
    trivial
  case comment =>
    cases read
    exact oneLine_comment (mt Text.mem_of_mem_trim (dropped 1))
  case filter =>
    split at read
    · cases read
    · obtain ⟨block, -, rest⟩ := bind_ok read
      cases rest
      trivial
  case escape =>
    cases read
    exact plain (dropped 1)
  case plain =>
    cases read
    exact plain whole

end Header

namespace Document

theorem not_mem_of_mem_physicalLines {cs raw : List Char} (member : raw ∈ Text.physicalLines cs) :
    '\n' ∉ raw := by
  obtain ⟨piece, among, rfl⟩ := List.mem_map.mp member
  have whole := Text.not_mem_of_mem_splitOn among
  unfold Text.dropReturn
  split
  · exact mt List.mem_of_mem_dropLast whole
  · exact whole

/-- The nodes of a document hold no line feeds in what is written in one line. -/
theorem read_oneLine {unit : IndentUnit} {source : String} {forest : Forest}
    (read : Document.read unit source = .ok forest) : ∀ p ∈ forest.preorder, p.2.kind.OneLine := by
  intro p member
  obtain ⟨i, raw, below, _, _, line, header, -, drop, readLine, readHeader, same, -⟩ :=
    stands_of_read read p member
  have among : raw ∈ Text.physicalLines source.toList :=
    List.mem_of_mem_drop (drop ▸ List.mem_cons_self ..)
  obtain ⟨_, -, rest⟩ := bind_ok readLine
  cases rest
  have kind : header.kind = p.2.kind := same
  rw [← kind]
  refine Header.read_oneLine (fun inside => ?_) readHeader
  have content := (List.dropWhile_sublist Text.isIndent).mem (Text.mem_of_mem_trimEnd inside)
  exact not_mem_of_mem_physicalLines among content

end Document

end Haml
