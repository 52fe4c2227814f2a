import Haml.Attribute.Set
import Haml.Proofs.OneLine
/-! Quoted values: attributes that are written with their values escaped can be read back. -/

namespace Haml

namespace Markup

/-- The text that one with entities stands for. -/
def decode : List Char → List Char
  | '&' :: 'a' :: 'm' :: 'p' :: ';' :: cs => '&' :: decode cs
  | '&' :: 'l' :: 't' :: ';' :: cs => '<' :: decode cs
  | '&' :: 'g' :: 't' :: ';' :: cs => '>' :: decode cs
  | '&' :: 'q' :: 'u' :: 'o' :: 't' :: ';' :: cs => '"' :: decode cs
  | '&' :: '#' :: 'x' :: '2' :: '7' :: ';' :: cs => '\'' :: decode cs
  | c :: cs => c :: decode cs
  | [] => []

theorem decode_cons_of_ne {c : Char} (plain : c ≠ '&') (cs : List Char) :
    decode (c :: cs) = c :: decode cs := by
  rw [decode.eq_def]
  split <;> simp_all

theorem decode_entity (c : Char) (cs : List Char) : decode (entity c ++ cs) = c :: decode cs := by
  unfold entity
  split
  · rfl
  · rfl
  · rfl
  · rfl
  · rfl
  · next plain _ _ _ _ => exact decode_cons_of_ne plain cs

theorem decode_escapeChars (cs : List Char) : decode (escapeChars cs) = cs := by
  induction cs with
  | nil => rfl
  | cons c cs ih =>
      rw [escapeChars, List.flatMap_cons, decode_entity]
      exact congrArg (c :: ·) ih

theorem quotes_not_mem_escapeChars (cs : List Char) :
    '"' ∉ escapeChars cs ∧ '\'' ∉ escapeChars cs := by
  have plain (quote : Char) (is : quote = '"' ∨ quote = '\'') : quote ∉ escapeChars cs := by
    intro member
    obtain ⟨c, -, among⟩ := List.mem_flatMap.mp member
    unfold entity at among
    split at among
    case h_6 notDouble notSingle =>
      obtain rfl := List.mem_singleton.mp among
      exact is.elim notDouble notSingle
    all_goals
      revert among
      rcases is with rfl | rfl <;> decide
  exact ⟨plain _ (.inl rfl), plain _ (.inr rfl)⟩

end Markup

namespace AttributeSet

open Markup (decode escapeChars decode_escapeChars quotes_not_mem_escapeChars)

theorem quoteFor_not_mem (wrapper : Char) (cs : List Char) :
    quoteFor wrapper (escapeChars cs) ∉ escapeChars cs := by
  obtain ⟨double, single⟩ := quotes_not_mem_escapeChars cs
  unfold quoteFor
  split
  · split
    · exact single
    · exact double
  · next free => exact free

def endsName (c : Char) : Bool := c == ' ' || c == '='

/-- Reads an attribute: after a space a name, and after `=` what stands between a quote and its next
occurrence. -/
def readEntry : List Char → Option ((String × AttributeValue) × List Char)
  | ' ' :: rest =>
      let name := String.ofList (rest.takeWhile fun c => !endsName c)
      match rest.dropWhile fun c => !endsName c with
      | '=' :: quote :: quoted =>
          (Text.splitOnce [quote] quoted).map fun (value, after) =>
            ((name, .text (String.ofList (decode value))), after)
      | ['='] => none
      | after => some ((name, .flag true), after)
  | _ => none

theorem length_readEntry {cs after : List Char} {entry : String × AttributeValue}
    (read : readEntry cs = some (entry, after)) : after.length < cs.length := by
  unfold readEntry at read
  split at read
  · next rest =>
      have shorter := (List.dropWhile_sublist (fun c => !endsName c) (l := rest)).length_le
      split at read
      · next quote quoted unread =>
          obtain ⟨⟨value, last⟩, cut, same⟩ := Option.map_eq_some_iff.mp read
          cases same
          have whole := congrArg List.length (Text.splitOnce_append cut)
          rw [unread] at shorter
          simp only [List.length_append, List.length_cons, List.length_nil] at whole shorter ⊢
          omega
      · cases read
      · cases read
        exact Nat.lt_succ_of_le shorter
  · cases read

def readEntries (cs : List Char) : Option (List (String × AttributeValue)) :=
  if cs.isEmpty then some []
  else
    match _h : readEntry cs with
    | some (entry, after) => (entry :: ·) <$> readEntries after
    | none => none
termination_by cs.length
decreasing_by exact length_readEntry _h

/-- Whether a name can be told from what stands around it. -/
def IsName (name : String) : Prop := ' ' ∉ name.toList ∧ '=' ∉ name.toList

instance (name : String) : Decidable (IsName name) :=
  inferInstanceAs (Decidable (' ' ∉ name.toList ∧ '=' ∉ name.toList))

theorem endsName_of_isName {name : String} (named : IsName name) :
    ∀ c ∈ name.toList, (!endsName c) = true := by
  intro c member
  have space : c ≠ ' ' := by
    rintro rfl
    exact named.1 member
  have equals : c ≠ '=' := by
    rintro rfl
    exact named.2 member
  simp [endsName, space, equals]

theorem splitOnce_quote {quote : Char} {value : List Char} (free : quote ∉ value)
    (rest : List Char) : Text.splitOnce [quote] (value ++ quote :: rest) = some (value, rest) := by
  induction value with
  | nil => simp [Text.splitOnce, List.isPrefixOf?]
  | cons c value ih =>
      obtain ⟨here, later⟩ := not_or.mp (mt List.mem_cons.mpr free)
      have apart : (quote == c) = false := beq_eq_false_iff_ne.mpr here
      rw [List.cons_append, Text.splitOnce, List.isPrefixOf?, apart]
      simp [ih later]

/-- An attribute that is written is read back, whatever is written after it. -/
theorem readEntry_writeEntry (wrapper : Char) {entry : String × AttributeValue}
    (named : IsName entry.1) (shown : entry.2 ≠ .flag false) {rest : List Char}
    (apart : ∀ c ∈ rest.head?, c = ' ') :
    readEntry (writeEntry wrapper true entry ++ rest) = some (entry, rest) := by
  obtain ⟨name, value⟩ := entry
  have whole := endsName_of_isName named
  cases value with
  | flag value =>
      cases value with
      | false => exact absurd rfl shown
      | true =>
          have written : writeEntry wrapper true (name, .flag true) ++ rest =
              ' ' :: (name.toList ++ rest) := rfl
          rw [written, readEntry, List.takeWhile_append_of_pos whole,
            List.dropWhile_append_of_pos whole]
          cases rest with
          | nil => simp
          | cons c rest =>
              obtain rfl := apart c rfl
              simp [endsName]
  | text value =>
      have written : writeEntry wrapper true (name, .text value) ++ rest =
          ' ' :: (name.toList ++ '=' :: quoteFor wrapper (escapeChars value.toList) ::
            (escapeChars value.toList ++ quoteFor wrapper (escapeChars value.toList) :: rest)) := by
        simp [writeEntry]
      have equals : (!endsName '=') = false := rfl
      rw [written, readEntry, List.takeWhile_append_of_pos whole, List.dropWhile_append_of_pos whole,
        List.takeWhile_cons, List.dropWhile_cons, equals]
      simp [splitOnce_quote (quoteFor_not_mem wrapper value.toList), decode_escapeChars]

theorem head_writeEntry (wrapper : Char) (escape : Bool) (entry : String × AttributeValue)
    (shown : entry.2 ≠ .flag false) : ∃ cs, writeEntry wrapper escape entry = ' ' :: cs := by
  obtain ⟨name, value⟩ := entry
  cases value with
  | flag value =>
      cases value with
      | false => exact absurd rfl shown
      | true => exact ⟨_, rfl⟩
  | text value => exact ⟨_, rfl⟩

theorem head_writeEntries (wrapper : Char) (escape : Bool)
    (entries : List (String × AttributeValue)) :
    ∀ c ∈ (entries.flatMap (writeEntry wrapper escape)).head?, c = ' ' := by
  induction entries with
  | nil => exact nofun
  | cons entry rest ih =>
      rw [List.flatMap_cons]
      by_cases shown : entry.2 = .flag false
      · obtain ⟨name, value⟩ := entry
        cases shown
        exact ih
      · obtain ⟨cs, written⟩ := head_writeEntry wrapper escape entry shown
        rw [written]
        rintro c ⟨⟩
        rfl

/-- Attributes that are written are read back in their order, but for false flags, which are left
out. -/
theorem readEntries_write (wrapper : Char) {entries : List (String × AttributeValue)}
    (named : ∀ entry ∈ entries, IsName entry.1) :
    readEntries (entries.flatMap (writeEntry wrapper true)) =
      some (entries.filter fun entry => entry.2 ≠ .flag false) := by
  induction entries with
  | nil =>
      rw [readEntries]
      rfl
  | cons entry rest ih =>
      obtain ⟨here, others⟩ := List.forall_mem_cons.mp named
      rw [List.flatMap_cons]
      by_cases shown : entry.2 = .flag false
      · obtain ⟨name, value⟩ := entry
        cases shown
        exact ih others
      · have read := readEntry_writeEntry wrapper here shown (head_writeEntries wrapper true rest)
        obtain ⟨cs, written⟩ := head_writeEntry wrapper true entry shown
        have filled : (writeEntry wrapper true entry ++
            rest.flatMap (writeEntry wrapper true)).isEmpty = false := by
          rw [written]
          rfl
        rw [readEntries, filled, if_neg Bool.false_ne_true]
        split
        · next found after again =>
            rw [read] at again
            cases again
            rw [ih others, List.filter_cons, if_pos (decide_eq_true shown)]
            rfl
        · next absent =>
            rw [read] at absent
            cases absent

/-- Whatever quote is asked for, the attributes that are written can be read back with their values,
and no value holds the quotes around it. -/
theorem write_readable {s : AttributeSet} (named : ∀ entry ∈ s.entries, IsName entry.1)
    (wrapper : Char) :
    readEntries (s.write wrapper true).toList =
        some (s.entries.filter fun entry => entry.2 ≠ .flag false) ∧
      ∀ cs, quoteFor wrapper (escapeChars cs) ∉ escapeChars cs := by
  rw [write, String.toList_ofList]
  exact ⟨readEntries_write wrapper named, quoteFor_not_mem wrapper⟩

def quoted : AttributeSet :=
  ⟨[("title", .text "it's \"&lt;\" & <b>"), ("hidden", .flag false), ("checked", .flag true),
    ("lang", .text ""), ("a:b", .text "x y=z")]⟩

/-- Quotes that are ampersands, which entities hold. -/
theorem write_readable_ampersand : (∀ entry ∈ quoted.entries, IsName entry.1) ∧
    quoted.write '&' true =
      " title=\"it&#x27;s &quot;&amp;lt;&quot; &amp; &lt;b&gt;\" checked lang=&& a:b=&x y=z&" ∧
    readEntries (quoted.write '&' true).toList =
      some [("title", .text "it's \"&lt;\" & <b>"), ("checked", .flag true), ("lang", .text ""),
        ("a:b", .text "x y=z")] ∧
    ∀ cs, quoteFor '&' (escapeChars cs) ∉ escapeChars cs := by
  have named : ∀ entry ∈ quoted.entries, IsName entry.1 := by decide +kernel
  exact ⟨named, by decide +kernel, (write_readable named '&').1, (write_readable named '&').2⟩

end AttributeSet

end Haml
