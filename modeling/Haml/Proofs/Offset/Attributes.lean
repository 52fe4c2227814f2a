import Haml.Attribute.Entry
import Haml.Proofs.Offset.Interpolation
import Haml.Proofs.Offset.Tokens
import Mathlib.Data.Option.Basic
/-! Attributes by offsets: keys and values are ranges of tokens, and quotes are cut off. -/

namespace Haml.Offset

open Attribute

section Reading

variable (line : Nat) (source : List Char)

def orFault {α : Type} : Except AttributeFault α → Run α
  | .ok a => pure a
  | .error fault => throw (.attributeSyntax line fault)

def withoutQuotes (text : List Char) : Option (List Char) := do
  let last ← sub (byteLength text) 1
  cut text 1 last

def unquote (text : List Char) : Option (Except AttributeFault String) :=
  (withoutQuotes text).map unescape

def literal? (s : Spanned) : Option (Option (Except AttributeFault Literal)) := do
  let text ← s.text source
  match s.kind with
  | .singleQuoted | .doubleQuoted =>
      let inner ← unquote text
      return some ((fun s => .value (.text s)) <$> inner)
  | .symbol =>
      let name ← cutFrom text 1
      return some (.ok (.value (.text (String.ofList name))))
  | kind => return Attribute.literal? ⟨kind, text⟩

def markedInner? (s : Spanned) : Option (Option (List Char)) :=
  if s.is .doubleQuoted then do
    let text ← s.text source
    let inner ← withoutQuotes text
    let marked ← isMarked inner
    return if marked then some inner else none
  else some none

def tokenEntry (name : String) (s : Spanned) : Run (Option AttributeEntry) := do
  match ← markedInner? source s with
  | some inner =>
      let segments ← split line inner
      let segments ← orFault line (segments.mapM unescapeSegment)
      return some (.dynamic name (.interpolated segments))
  | none =>
      match ← literal? source s with
      | some literal =>
          match ← orFault line literal with
          | .value value => return some (.fixed name value)
          | .nothing => return none
      | none =>
          let code ← slice source [s]
          return some (.dynamic name (.expression (String.ofList code)))

def valueEntry (name : String) (value : List Spanned) : Run (Option AttributeEntry) :=
  match value with
  | [s] => tokenEntry line source name s
  | value => do
      let code ← slice source value
      return some (.dynamic name (.expression (String.ofList code)))

def unquoteKey (text : List Char) : Run String := do
  let key ← unquote text
  orFault line key

def colonKey? (kind : TokenKind) (text : List Char) : Run (Option String) :=
  match kind with
  | .name => return some (String.ofList text)
  | .singleQuoted | .doubleQuoted => some <$> unquoteKey line text
  | _ => return none

def rocketKey (kind : TokenKind) (text : List Char) : Run String :=
  match kind with
  | .symbol => do
      let name ← cutFrom text 1
      return String.ofList name
  | .singleQuoted | .doubleQuoted => unquoteKey line text
  | _ => throw (.attributeSyntax line (.badKey (String.ofList text)))

def colonPair? (kind : TokenKind) (text : List Char) (part : List Spanned) :
    Run (Option (String × List Spanned)) :=
  match part[1]? with
  | none => return none
  | some second =>
      if second.is .colon || second.is .symbol then do
        match ← colonKey? line kind text with
        | none => return none
        | some key =>
            let after ← rangeFrom part 2
            if second.is .colon then return some (key, after)
            else return some (key, ⟨.name, second.start + 1, second.stop⟩ :: after)
      else return none

def rocketPair? (kind : TokenKind) (text : List Char) (part : List Spanned) :
    Run (Option (String × List Spanned)) := do
  let rest ← rangeFrom part 1
  let after ← trim rest
  if after.head?.any (·.is .rocket) then
    let key ← rocketKey line kind text
    let value ← rangeFrom after 1
    return some (key, value)
  else return none

def hashKey (part : List Spanned) : Run (Option (String × List Spanned)) := do
  let first ← (item part 0 : Option Spanned)
  let text ← first.text source
  match ← colonPair? line first.kind text part with
  | some pair => return some pair
  | none => rocketPair? line first.kind text part

def hashEntry (part : List Spanned) : Run (Option AttributeEntry) := do
  let part ← trim part
  if part.isEmpty then return none
  else
    match ← hashKey line source part with
    | some (name, value) =>
        let value ← trim value
        if value.isEmpty then throw (.attributeSyntax line (.missingValue name))
        else valueEntry line source name value
    | none =>
        let code ← slice source part
        return some (.splat (String.ofList code))

def ofHash : Run (List AttributeEntry) := do
  let parts ← splitCommas (tokenize source)
  let entries ← parts.mapM (hashEntry line source)
  return entries.reduceOption

end Reading

section Agreement

variable {source : List Char} {spans : List Spanned} {ts us : List Token}
  {s : Spanned} {t : Token}

theorem orFault_agrees {α : Type} (line : Nat) (x : Except AttributeFault α) :
    Agrees Eq (orFault line x) (x.mapError (.attributeSyntax line)) := by
  cases x with
  | ok a => exact .ok rfl
  | error fault => exact .error _

theorem withoutQuotes_eq (quoted : t.kind = .singleQuoted ∨ t.kind = .doubleQuoted)
    (shaped : t.Shaped) : withoutQuotes t.text = some (Attribute.withoutQuotes t.text) := by
  have cutOut {q : Char} {inner : List Char} (text : t.text = q :: (inner ++ [q]))
      (small : q.utf8Size = 1) : withoutQuotes t.text = some (Attribute.withoutQuotes t.text) := by
    have last : sub (byteLength t.text) 1 = some (1 + byteLength inner) := by
      apply sub_eq
      simp [text, small]
      omega
    have inside : cut t.text 1 (1 + byteLength inner) = some inner := by
      apply cut_eq [q] [q]
      · simp [text]
      · simp [small]
      · simp [small]
    rw [withoutQuotes, last]
    refine inside.trans ?_
    simp [Attribute.withoutQuotes, text]
  rcases quoted with kind | kind
  · simp only [Token.Shaped, kind] at shaped
    obtain ⟨inner, text⟩ := shaped
    exact cutOut text rfl
  · simp only [Token.Shaped, kind] at shaped
    obtain ⟨inner, text⟩ := shaped
    exact cutOut text rfl

theorem unquote_eq (quoted : t.kind = .singleQuoted ∨ t.kind = .doubleQuoted)
    (shaped : t.Shaped) : unquote t.text = some (unescape (Attribute.withoutQuotes t.text)) := by
  rw [unquote, withoutQuotes_eq quoted shaped, Option.map_some]

theorem symbolName_eq (symbol : t.kind = .symbol) (shaped : t.Shaped) :
    cutFrom t.text 1 = some t.text.tail := by
  simp only [Token.Shaped, symbol] at shaped
  obtain ⟨name, text⟩ := shaped
  apply cutFrom_eq [':']
  · simp [text]
  · rfl

theorem literal?_eq (kind : s.kind = t.kind) (text : s.text source = some t.text)
    (shaped : t.Shaped) : literal? source s = some (Attribute.literal? t) := by
  rw [literal?, text, kind]
  simp only [Option.bind_eq_bind, Option.bind_some]
  split
  · next single =>
      rw [unquote_eq (.inl single) shaped, Attribute.literal?, single]
      rfl
  · next double =>
      rw [unquote_eq (.inr double) shaped, Attribute.literal?, double]
      rfl
  · next symbol =>
      rw [symbolName_eq symbol shaped, Attribute.literal?, symbol]
      rfl
  · rfl

theorem markedInner?_eq (kind : s.kind = t.kind) (text : s.text source = some t.text)
    (shaped : t.Shaped) : markedInner? source s =
      some (if t.is .doubleQuoted && Interpolation.isMarked (Attribute.withoutQuotes t.text) then
        some (Attribute.withoutQuotes t.text) else none) := by
  rw [markedInner?, is_eq kind]
  cases double : t.is .doubleQuoted with
  | false => rfl
  | true =>
      rw [text, if_pos rfl, Bool.true_and]
      simp only [Option.bind_eq_bind, Option.bind_some]
      rw [withoutQuotes_eq (.inr (eq_of_beq double)) shaped, Option.bind_some, isMarked_eq]
      rfl

theorem tokenEntry_eq (line : Nat) (name : String) (t : Token) :
    Attribute.tokenEntry line name t =
      if t.is .doubleQuoted && Interpolation.isMarked (Attribute.withoutQuotes t.text) then do
        let segments ← orUnterminated line (Interpolation.split (Attribute.withoutQuotes t.text))
        let segments ← (segments.mapM unescapeSegment).mapError (.attributeSyntax line)
        return some (.dynamic name (.interpolated segments))
      else
        match Attribute.literal? t with
        | some literal => do
            match ← literal.mapError (.attributeSyntax line) with
            | .value value => return some (.fixed name value)
            | .nothing => return none
        | none => return some (.dynamic name (.expression (String.ofList t.text))) := by
  unfold Attribute.tokenEntry
  dsimp only
  split
  · cases Interpolation.split (Attribute.withoutQuotes t.text) with
    | none => rfl
    | some segments =>
        change _ = do
          let segments ← (segments.mapM unescapeSegment).mapError (Error.attributeSyntax line)
          return some (AttributeEntry.dynamic name (.interpolated segments))
        dsimp only
        cases segments.mapM unescapeSegment with
        | ok segments => rfl
        | error fault => rfl
  · cases Attribute.literal? t with
    | none => rfl
    | some literal =>
        cases literal with
        | error fault => rfl
        | ok literal =>
            cases literal with
            | value value => rfl
            | nothing => rfl

theorem tokenEntry_agrees (covers : Covers source [s] [t]) (line : Nat) (name : String) :
    Agrees Eq (tokenEntry line source name s) (Attribute.tokenEntry line name t) := by
  obtain ⟨_, _, here, kind, text, -, -⟩ := covers.cons
  cases here
  have shaped := covers.shaped t List.mem_cons_self
  rw [tokenEntry_eq]
  refine .step (markedInner?_eq kind text shaped) ?_
  by_cases marked : (t.is .doubleQuoted &&
      Interpolation.isMarked (Attribute.withoutQuotes t.text)) = true
  · rw [if_pos marked, if_pos marked]
    refine (split_agrees line _).bind ?_
    rintro segments _ - rfl
    refine (orFault_agrees line _).bind ?_
    rintro segments _ - rfl
    exact .ok rfl
  · rw [if_neg marked, if_neg marked]
    refine .step (literal?_eq kind text shaped) ?_
    cases Attribute.literal? t with
    | none =>
        refine .step covers.slice (.ok ?_)
        simp [Token.texts]
    | some literal =>
        refine (orFault_agrees line _).bind ?_
        rintro literal _ - rfl
        cases literal with
        | value value => exact .ok rfl
        | nothing => exact .ok rfl

theorem valueEntry_agrees (covers : Covers source spans ts) (line : Nat) (name : String) :
    Agrees Eq (valueEntry line source name spans) (Attribute.valueEntry line name ts) := by
  match ts, covers with
  | [t], covers =>
      obtain ⟨s, rest, rfl, -, -, first, others⟩ := covers.cons
      rw [others.of_nil]
      exact tokenEntry_agrees first line name
  | [], covers =>
      rw [covers.of_nil]
      exact .ok rfl
  | t :: u :: ts, covers =>
      obtain ⟨s, _, rfl, -, -, -, others⟩ := covers.cons
      obtain ⟨v, rest, rfl, -, -, -, -⟩ := others.cons
      refine .step covers.slice ?_
      exact .ok rfl

def keyed {α : Type} (line : Nat) : Option (Except AttributeFault α) → Except Error (Option α)
  | none => .ok none
  | some key => some <$> key.mapError (.attributeSyntax line)

theorem keyed_map {α β : Type} (line : Nat) (f : α → β) (key : Option (Except AttributeFault α)) :
    keyed line (key.map fun key => f <$> key) = Option.map f <$> keyed line key := by
  cases key with
  | none => rfl
  | some key =>
      cases key with
      | ok key => rfl
      | error fault => rfl

theorem keyed_or {α : Type} (line : Nat) (first second : Option (Except AttributeFault α)) :
    keyed line (first.or second) = (do
      match ← keyed line first with
      | some key => return some key
      | none => keyed line second) := by
  cases first with
  | none => rfl
  | some key =>
      cases key with
      | ok key => rfl
      | error fault => rfl

theorem unquoteKey_agrees (quoted : t.kind = .singleQuoted ∨ t.kind = .doubleQuoted)
    (shaped : t.Shaped) (line : Nat) : Agrees Eq (unquoteKey line t.text)
      ((unescape (Attribute.withoutQuotes t.text)).mapError (.attributeSyntax line)) :=
  .step (unquote_eq quoted shaped) (orFault_agrees line _)

theorem colonKey?_agrees (shaped : t.Shaped) (line : Nat) :
    Agrees Eq (colonKey? line t.kind t.text) (keyed line (Attribute.colonKey? t)) := by
  unfold colonKey? Attribute.colonKey?
  cases kind : t.kind with
  | name => exact .ok rfl
  | singleQuoted =>
      refine (unquoteKey_agrees (.inl kind) shaped line).map ?_
      rintro key _ rfl
      rfl
  | doubleQuoted =>
      refine (unquoteKey_agrees (.inr kind) shaped line).map ?_
      rintro key _ rfl
      rfl
  | _ => exact .ok rfl

theorem rocketKey_agrees (shaped : t.Shaped) (line : Nat) : Agrees Eq (rocketKey line t.kind t.text)
    ((Attribute.rocketKey t).mapError (.attributeSyntax line)) := by
  unfold rocketKey Attribute.rocketKey
  cases kind : t.kind with
  | symbol => exact .step (symbolName_eq kind shaped) (.ok rfl)
  | singleQuoted => exact unquoteKey_agrees (.inl kind) shaped line
  | doubleQuoted => exact unquoteKey_agrees (.inr kind) shaped line
  | _ => exact .error _

def Pairs (source : List Char) (p : String × List Spanned) (q : String × List Token) : Prop :=
  p.1 = q.1 ∧ Covers source p.2 q.2

theorem colonPair?_agrees (covers : Covers source spans (t :: ts)) (line : Nat) :
    Agrees (Option.Rel (Pairs source)) (colonPair? line t.kind t.text spans)
      (keyed line (Attribute.colonPair? t ts)) := by
  have shaped := covers.shaped t List.mem_cons_self
  cases ts with
  | nil =>
      obtain ⟨s, rest, rfl, -, -, -, others⟩ := covers.cons
      rw [others.of_nil]
      exact .ok .none
  | cons u us =>
      obtain ⟨s, _, rfl, -, -, -, others⟩ := covers.cons
      obtain ⟨v, rest, rfl, kind, -, -, later⟩ := others.cons
      have range : rangeFrom (s :: v :: rest) 2 = some rest := rangeFrom_eq [s, v] rfl rfl
      unfold colonPair? Attribute.colonPair?
      simp only [List.getElem?_cons_succ, List.getElem?_cons_zero, is_eq kind]
      by_cases isColon : u.is .colon = true
      · simp only [isColon, Bool.true_or, if_true, keyed_map]
        refine (colonKey?_agrees shaped line).bind_map ?_
        rintro key _ rfl
        cases key with
        | none => exact .ok .none
        | some key => exact .step range (.ok (.some ⟨rfl, later⟩))
      · by_cases isSymbol : u.is .symbol = true
        · simp only [isColon, isSymbol, Bool.or_true, if_true, Bool.false_eq_true, if_false,
            keyed_map]
          refine (colonKey?_agrees shaped line).bind_map ?_
          rintro key _ rfl
          cases key with
          | none => exact .ok .none
          | some key =>
              refine .step range (.ok (.some ⟨rfl, ?_⟩))
              exact others.symbolName (eq_of_beq isSymbol)
        · simp only [isColon, isSymbol, Bool.or_self, Bool.false_eq_true, if_false]
          exact .ok .none

theorem rocketPair?_agrees (covers : Covers source spans (t :: ts)) (line : Nat) :
    Agrees (Option.Rel (Pairs source)) (rocketPair? line t.kind t.text spans)
      (keyed line (Attribute.rocketPair? t ts)) := by
  have shaped := covers.shaped t List.mem_cons_self
  obtain ⟨rest, range, covered⟩ := covers.rangeFrom_eq [t] ts rfl
  obtain ⟨after, trimmed, covered⟩ := covered.trim
  refine .step range (.step trimmed ?_)
  unfold Attribute.rocketPair?
  cases shown : Token.trim ts with
  | nil =>
      rw [shown] at covered
      rw [covered.of_nil]
      exact .ok .none
  | cons u us =>
      rw [shown] at covered
      obtain ⟨value, range, later⟩ := covered.rangeFrom_eq [u] us rfl
      obtain ⟨v, others, rfl, kind, -, -, -⟩ := covered.cons
      simp only [List.head?_cons, Option.any_some, is_eq kind]
      split
      · have steps : keyed line (some ((·, us) <$> Attribute.rocketKey t)) =
            (fun key => some (key, us)) <$>
              (Attribute.rocketKey t).mapError (.attributeSyntax line) := by
          cases Attribute.rocketKey t with
          | ok key => rfl
          | error fault => rfl
        rw [steps]
        refine (rocketKey_agrees shaped line).bind_map ?_
        rintro key _ rfl
        exact .step range (.ok (.some ⟨rfl, later⟩))
      · exact .ok .none

theorem hashKey_agrees (covers : Covers source spans (t :: ts)) (line : Nat) :
    Agrees (Option.Rel (Pairs source)) (hashKey line source spans)
      (keyed line ((Attribute.colonPair? t ts).or (Attribute.rocketPair? t ts))) := by
  have colon := colonPair?_agrees covers line
  have rocket := rocketPair?_agrees covers line
  obtain ⟨s, rest, rfl, kind, text, -, -⟩ := covers.cons
  rw [← kind] at colon rocket
  rw [keyed_or]
  refine .step (item_eq [] _ rfl rfl) (.step text (colon.bind ?_))
  rintro _ _ - (_ | _)
  · exact .ok (.some ‹_›)
  · exact rocket

theorem hashEntry_eq (line : Nat) (shown : Token.trim ts = t :: us) :
    Attribute.hashEntry line ts = (do
      match ← keyed line ((Attribute.colonPair? t us).or (Attribute.rocketPair? t us)) with
      | some (name, value) =>
          match Token.trim value with
          | [] => .error (.attributeSyntax line (.missingValue name))
          | value => Attribute.valueEntry line name value
      | none => return some (.splat (String.ofList (Token.texts (t :: us))))) := by
  unfold Attribute.hashEntry
  rw [shown]
  dsimp only
  cases (Attribute.colonPair? t us).or (Attribute.rocketPair? t us) with
  | none => rfl
  | some pair =>
      cases pair with
      | error fault => rfl
      | ok pair => rfl

theorem hashEntry_agrees (covers : Covers source spans ts) (line : Nat) :
    Agrees Eq (hashEntry line source spans) (Attribute.hashEntry line ts) := by
  obtain ⟨part, trimmed, covered⟩ := covers.trim
  refine .step trimmed ?_
  cases shown : Token.trim ts with
  | nil =>
      rw [shown] at covered
      rw [covered.of_nil, Attribute.hashEntry, shown]
      exact .ok rfl
  | cons t us =>
      rw [shown] at covered
      rw [hashEntry_eq line shown, covered.isEmpty_eq]
      refine (hashKey_agrees covered line).bind ?_
      rintro _ _ - (@⟨⟨name, places⟩, ⟨_, value⟩, rfl, covered⟩ | _)
      · obtain ⟨inner, trimmed, covered⟩ := covered.trim
        refine .step trimmed ?_
        dsimp only
        cases found : Token.trim value with
        | nil =>
            rw [found] at covered
            rw [covered.of_nil]
            exact .error _
        | cons u value =>
            rw [found] at covered
            rw [covered.isEmpty_eq]
            exact valueEntry_agrees covered line name
      · exact .step covered.slice (.ok rfl)

theorem ofHash_agrees (line : Nat) (source : List Char) :
    Agrees Eq (ofHash line source) (Attribute.ofHash line source) := by
  obtain ⟨parts, found, covered⟩ := (covers_tokenize source).splitCommas
  refine .step found ((Agrees.mapM covered fun _ _ covers => hashEntry_agrees covers line).bind ?_)
  rintro entries _ - rfl
  exact .ok rfl

end Agreement

end Haml.Offset
