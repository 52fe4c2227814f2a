import Haml.Document
import Haml.Proofs.Arrival
import Haml.Proofs.Offset.Tags
import Haml.Proofs.OneLine
/-! Documents by offsets: the characters that select what a line is are cut off its text. -/

namespace Haml.Offset

def comment (rest : List Char) : Option Comment :=
  match rest with
  | '[' :: inner =>
      match find? (· == ']') inner with
      | some stop => do
          let after ← cutFrom inner (stop + 1)
          let condition ← cut inner 0 stop
          return ⟨some (String.ofList condition), Header.nonEmpty (Text.trim after)⟩
      | none => some ⟨none, Header.nonEmpty rest⟩
  | _ => some ⟨none, Header.nonEmpty rest⟩

def readKind (bound : Nat) (line : Line) (sigil : Sigil) (l : Lexer) : Run (NodeKind × Lexer) :=
  match sigil with
  | .tag | .cssClass | .cssId => do
      let (tag, l) ← readTag line.number line.text l
      return (.tag tag, l)
  | .output => do
      let code ← cutFrom line.text 1
      return (Header.output code .standard, l)
  | .escapedOutput => do
      let code ← cutFrom line.text 2
      return (Header.output code .always, l)
  | .unescapedOutput => do
      let code ← cutFrom line.text 2
      return (Header.output code .never, l)
  | .script => do
      let code ← cutFrom line.text 1
      return (.script (String.ofList (Text.trim code)), l)
  | .silentComment => do
      let l ← l.skipBlock bound line.depth
      return (.silentComment, l)
  | .doctype => do
      let argument ← cutFrom line.text 3
      return (.doctype (String.ofList (Text.trim argument)), l)
  | .comment => do
      let rest ← cutFrom line.text 1
      let comment ← comment (Text.trim rest)
      return (.comment comment, l)
  | .filter => do
      let name ← cutFrom line.text 1
      if name.isEmpty || !name.all Header.isFilterChar then
        throw (.invalidFilterName line.number (String.ofList name))
      else
        let (lines, l) ← l.takeBlock line.depth
        return (.filter (String.ofList name) (String.ofList (List.intercalate ['\n'] lines)), l)
  | .escape => do
      let text ← cutFrom line.text 1
      return (.text (String.ofList text), l)
  | .plain => return (.text (String.ofList line.text), l)

def descend (o : Outline) (depth line : Nat) : Run Outline :=
  if o.path.length < depth then
    if o.path.isEmpty then throw (.inconsistentIndentation line .atStart)
    else do
      let levels ← sub (depth + 1) o.path.length
      throw (.inconsistentIndentation line (.levels levels))
  else
    let o := o.closeTo depth
    match o.path.head?.bind fun parent => parent.kind.nestingFault? with
    | some fault => throw (.illegalNesting line fault)
    | none => return o

def Lexer.readFrom (bound : Nat) (l : Lexer) (o : Outline) : Run Forest := do
  let (next, l) ← l.nextLine
  match next with
  | none => return o.finish
  | some (line, sigil) =>
      let o ← descend o line.depth line.number
      let (kind, l) ← readKind bound line sigil l
      l |>.readFrom bound (o.push ⟨kind, line.number, []⟩)
partial_fixpoint

def read (bound : Nat) (unit : IndentUnit) (source : String) : Run Forest :=
  Lexer.readFrom bound ⟨Text.physicalLines source.toList, 0, Indent.preset unit⟩ .empty

section Comments

theorem splitOnce_cons (c d : Char) (cs : List Char) :
    Text.splitOnce [c] (d :: cs) = if d = c then some ([], cs) else
      (Text.splitOnce [c] cs).map fun p => (d :: p.1, p.2) := by
  rw [Text.splitOnce, List.isPrefixOf?]
  by_cases here : d = c
  · simp [here, List.isPrefixOf?]
  · simp [here, Ne.symm here]

theorem find?_eq (c : Char) (cs : List Char) :
    find? (· == c) cs = (Text.splitOnce [c] cs).map fun p => byteLength p.1 := by
  induction cs with
  | nil => rfl
  | cons d cs ih =>
      rw [find?, splitOnce_cons, ih]
      by_cases here : d = c
      · simp [here]
      · simp [here, Function.comp_def]

theorem comment_eq (rest : List Char) : comment rest = some (Header.comment rest) := by
  fun_cases Header.comment rest with
  | case1 inner before after found =>
      have whole := Text.splitOnce_append found
      have close : byteLength [']'] = 1 := rfl
      have held : cut inner 0 (byteLength before) = some before := by
        apply cut_front ([']'] ++ after)
        · rw [whole, List.append_assoc]
        · rfl
      have left : cutFrom inner (byteLength before + 1) = some after := by
        apply cutFrom_eq _ whole
        rw [byteLength_append, close]
      rw [comment, find?_eq, found]
      simp only [Option.map_some, left, held, Option.bind_eq_bind, Option.bind_some]
      rfl
  | case2 inner absent =>
      rw [comment, find?_eq, absent]
      rfl
  | case3 =>
      rw [comment]
      assumption

end Comments

section Sigils

def sigilLength : Sigil → Nat
  | .output | .script | .comment | .filter | .escape => 1
  | .escapedOutput | .unescapedOutput => 2
  | .doctype => 3
  | .tag | .cssClass | .cssId | .silentComment | .plain => 0

theorem cutFrom_classify (text : List Char) :
    cutFrom text (sigilLength (.classify text)) =
      some (text.drop (sigilLength (.classify text))) := by
  have shown (front rest : List Char) (length : byteLength front = front.length) :
      cutFrom (front ++ rest) front.length = some ((front ++ rest).drop front.length) := by
    rw [List.drop_left]
    exact cutFrom_eq _ rfl length.symm
  fun_cases Sigil.classify text with
  | case1 rest => exact shown ['!', '!', '!'] rest rfl
  | case2 rest => exact shown ['!', '='] rest rfl
  | case3 rest => exact shown ['&', '='] rest rfl
  | case5 rest => exact shown ['-'] rest rfl
  | case6 rest => exact shown ['='] rest rfl
  | case11 rest => exact shown ['/'] rest rfl
  | case12 rest => exact shown [':'] rest rfl
  | case13 rest => exact shown ['\\'] rest rfl
  | _ => exact shown [] _ rfl

end Sigils

theorem descend_agrees (o : Outline) (depth line : Nat) :
    Agrees Eq (descend o depth line) (o.descend depth line) := by
  unfold descend Outline.descend
  split
  · next deeper =>
      split
      · exact .error _
      · exact .step (if_pos (by omega)) (.error _)
  · dsimp only
    cases (o.closeTo depth).path.head?.bind fun parent => parent.kind.nestingFault? with
    | none => exact .ok rfl
    | some fault => exact .error _

section Headers

variable {l : Lexer} {line : Line} {bound : Nat}

theorem readKind_agrees (line : Line) (within : l.cursor ≤ l.lines.length)
    (wide : Indent.Wide l.unit) (number : line.number = l.cursor)
    (fits : Indent.width l.unit line.depth ≤ bound) :
    Agrees (fun a header => a = (header.kind, ⟨l.lines, l.cursor + header.taken, header.unit⟩))
      (readKind bound line line.sigil l)
      (Header.read l.unit line (l.lines.drop l.cursor)) := by
  have shown := cutFrom_classify line.text
  rw [← Line.sigil] at shown
  unfold readKind Header.read
  cases sigil : line.sigil with
  | tag | cssClass | cssId =>
      refine (readTag_agrees l line.number line.text within).bind ?_
      rintro ⟨tag, last⟩ ⟨_, left⟩ - ⟨rfl, ⟨n, rfl, within⟩, rfl⟩
      have taken : (l.lines.drop l.cursor).length - (l.lines.drop (l.cursor + n)).length = n := by
        rw [List.length_drop, List.length_drop]
        omega
      refine .ok ?_
      dsimp only
      rw [taken]
  | output =>
      rw [sigil] at shown
      exact .step shown (.ok rfl)
  | escapedOutput =>
      rw [sigil] at shown
      exact .step shown (.ok rfl)
  | unescapedOutput =>
      rw [sigil] at shown
      exact .step shown (.ok rfl)
  | script =>
      rw [sigil] at shown
      exact .step shown (.ok rfl)
  | silentComment => exact .step (Lexer.skipBlock_eq fits) (.ok rfl)
  | doctype =>
      rw [sigil] at shown
      exact .step shown (.ok rfl)
  | comment =>
      rw [sigil] at shown
      exact .step shown (.step (comment_eq _) (.ok rfl))
  | filter =>
      rw [sigil] at shown
      refine .step shown ?_
      dsimp only [sigilLength]
      split
      · exact .error _
      · rw [number]
        refine (Lexer.takeBlock_agrees within wide line.depth).bind ?_
        rintro _ block - rfl
        exact .ok rfl
  | escape =>
      rw [sigil] at shown
      exact .step shown (.ok rfl)
  | plain => exact .ok rfl

end Headers

section Sources

variable {bound : Nat}

/-- Whether the next lines can be read. -/
structure Lexer.Sound (bound : Nat) (l : Lexer) : Prop where
  within : l.cursor ≤ l.lines.length
  wide : Indent.Wide l.unit
  fits : ∀ raw ∈ l.lines, byteLength raw ≤ bound

theorem Lexer.Sound.width_le {l : Lexer} {raw : List Char} {unit : Option Indent} {depth : Nat}
    (sound : l.Sound bound) (next : l.lines[l.cursor]? = some raw)
    (measures : Indent.Measures unit (Line.lead raw) depth) : Indent.width unit depth ≤ bound := by
  have front := (List.takeWhile_sublist Text.isIndent (l := raw)).length_le
  have chars := length_le_byteLength raw
  have bytes := sound.fits raw (List.mem_of_getElem? next)
  rw [← Line.length_lead_of_measures measures]
  exact front.trans (chars.trans bytes)

theorem Lexer.readFrom_blank {l : Lexer} {raw : List Char} (next : l.lines[l.cursor]? = some raw)
    (blank : Text.allBlank raw = true) (o : Outline) :
    l.readFrom bound o = { l with cursor := l.cursor + 1 }.readFrom bound o := by
  rw [readFrom, l.nextLine_blank next blank, ← readFrom]

theorem Lexer.readFrom_agrees {l : Lexer} (sound : l.Sound bound) (o : Outline) :
    Agrees Eq (l.readFrom bound o)
      (Document.readLines l.unit o (l.cursor + 1) 0 (l.lines.drop l.cursor)) := by
  -- The induction is on the lines that are left to read.
  induction count : (l.lines.drop l.cursor).length using Nat.strongRecOn generalizing l o with
  | ind n ih =>
      cases left : l.lines.drop l.cursor with
      | nil =>
          have absent : l.lines[l.cursor]? = none :=
            List.getElem?_eq_none (List.drop_eq_nil_iff.mp left)
          rw [readFrom, Lexer.nextLine_end absent, Document.readLines]
          exact .ok rfl
      | cons raw below =>
          have next : l.lines[l.cursor]? = some raw := by
            rw [← List.head?_drop, left, List.head?_cons]
          have within : l.cursor + 1 ≤ l.lines.length := (List.getElem?_eq_some_iff.mp next).1
          have rest : l.lines.drop (l.cursor + 1) = below := by
            rw [← List.tail_drop, left, List.tail_cons]
          have shorter : below.length < n := by
            rw [← count, left, List.length_cons]
            exact Nat.lt_succ_self _
          cases blank : Text.allBlank raw with
          | true =>
              have later := ih _ shorter (l := { l with cursor := l.cursor + 1 })
                ⟨within, sound.wide, sound.fits⟩ o (congrArg List.length rest)
              rw [readFrom_blank next blank, Document.readLines_blank blank, ← rest]
              exact later
          | false =>
              rw [readFrom, Document.readLines, blank, if_neg Bool.false_ne_true]
              refine (Lexer.nextLine_agrees next blank sound.wide).bind ?_
              rintro _ ⟨line, unit⟩ read rfl
              obtain ⟨⟨depth, _⟩, measured, equal⟩ := bind_ok read
              cases equal
              obtain ⟨-, wide, measures⟩ :=
                Indent.measure_ok sound.wide Line.isIndent_of_mem_lead measured
              refine (descend_agrees o depth _).bind ?_
              rintro o _ - rfl
              have header := readKind_agrees (l := ⟨l.lines, l.cursor + 1, unit⟩)
                ⟨l.cursor + 1, depth, Line.content raw⟩ within wide rfl
                (sound.width_le next measures)
              rw [← rest]
              refine header.bind ?_
              rintro _ header read rfl
              obtain ⟨-, wide, taken, -⟩ := Header.read_ok wide rfl measures read
              have after : l.cursor + 1 + header.taken ≤ l.lines.length := by
                rw [List.length_drop] at taken
                dsimp only at taken
                omega
              have fewer : (l.lines.drop (l.cursor + 1 + header.taken)).length < n := by
                rw [← count, List.length_drop, List.length_drop]
                omega
              have place : l.cursor + 1 + 1 + header.taken = l.cursor + 1 + header.taken + 1 :=
                Nat.add_right_comm ..
              rw [Document.readLines_taken, List.drop_drop, place]
              exact ih _ fewer (l := ⟨l.lines, l.cursor + 1 + header.taken, header.unit⟩)
                ⟨after, wide, sound.fits⟩ _ rfl

theorem byteLength_of_mem_physicalLines {cs raw : List Char}
    (member : raw ∈ Text.physicalLines cs) : byteLength raw ≤ byteLength cs := by
  obtain ⟨piece, inside, rfl⟩ := List.mem_map.mp member
  apply byteLength_le_of_sublist
  refine List.Sublist.trans ?_ (Text.infix_of_mem_splitOnP inside).sublist
  unfold Text.dropReturn
  split
  · exact List.dropLast_sublist piece
  · exact List.Sublist.refl piece

theorem read_agrees {source : String} (fits : source.utf8ByteSize ≤ bound) (unit : IndentUnit) :
    Agrees Eq (read bound unit source) (Document.read unit source) := by
  have sound : Lexer.Sound bound ⟨Text.physicalLines source.toList, 0, Indent.preset unit⟩ := by
    refine ⟨Nat.zero_le _, Indent.wide_preset unit, fun raw member => ?_⟩
    rw [← byteLength_toList] at fits
    exact (byteLength_of_mem_physicalLines member).trans fits
  exact Lexer.readFrom_agrees sound .empty

end Sources

end Haml.Offset
