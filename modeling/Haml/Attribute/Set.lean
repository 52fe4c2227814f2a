import Haml.Dict
import Haml.Text.Blank
import Haml.Text.Markup
/-! The attributes of one tag, in the order in which their names came to be present. Classes and ids
accumulate, every other name keeps the value merged last. -/

namespace Haml

inductive AttributeValue where
  | text (value : String)
  /-- Written as the bare name if true, and not at all if false. -/
  | flag (value : Bool)
  deriving DecidableEq, Repr

structure AttributeSet where
  entries : List (String × AttributeValue)
  deriving DecidableEq, Repr

namespace AttributeSet

def empty : AttributeSet := ⟨[]⟩

def get? (s : AttributeSet) (name : String) : Option AttributeValue := Dict.find? s.entries name

def size (s : AttributeSet) : Nat := s.entries.length

def put (name : String) (value : AttributeValue) :
    List (String × AttributeValue) → List (String × AttributeValue)
  | [] => [(name, value)]
  | (n, v) :: rest => if n = name then (n, value) :: rest else (n, v) :: put name value rest

def erase (s : AttributeSet) (name : String) : AttributeSet :=
  ⟨s.entries.filter fun (n, _) => n ≠ name⟩

def textOf (s : AttributeSet) (name : String) : List Char :=
  match s.get? name with
  | some (.text value) => value.toList
  | _ => []

def addTokens (tokens new : List (List Char)) : List (List Char) :=
  new.foldl (fun seen token => if token ∈ seen then seen else seen ++ [token]) tokens

def mergeClass (s : AttributeSet) (value : String) : AttributeSet :=
  let tokens := addTokens (Text.words (s.textOf "class")) (Text.words value.toList)
  if tokens.isEmpty then s
  else ⟨put "class" (.text (String.ofList (List.intercalate [' '] tokens))) s.entries⟩

def mergeId (s : AttributeSet) (value : String) : AttributeSet :=
  if value.isEmpty then s
  else
    let present := String.ofList (s.textOf "id")
    let joined := if present.isEmpty then value else present ++ "-" ++ value
    ⟨put "id" (.text joined) s.entries⟩

/-- Merges one attribute. A flag as class or id carries no name and adds nothing. -/
def merge (s : AttributeSet) (name : String) (value : AttributeValue) : AttributeSet :=
  match value with
  | .text value =>
      if name = "class" then s.mergeClass value
      else if name = "id" then s.mergeId value
      else ⟨put name (.text value) s.entries⟩
  | .flag value =>
      if name = "class" ∨ name = "id" then s else ⟨put name (.flag value) s.entries⟩

/-- Merges a computed attribute. No value drops the name, except that classes and ids only
accumulate. -/
def mergeComputed (s : AttributeSet) (name : String) (value : Option AttributeValue) :
    AttributeSet :=
  match value with
  | some value => s.merge name value
  | none => if name = "class" ∨ name = "id" then s else s.erase name

def quoteFor (wrapper : Char) (text : List Char) : Char :=
  if wrapper ∈ text then if wrapper = '"' then '\'' else '"' else wrapper

def writeEntry (wrapper : Char) (escape : Bool) : String × AttributeValue → List Char
  | (_, .flag false) => []
  | (name, .flag true) => ' ' :: name.toList
  | (name, .text value) =>
      let text := if escape then Markup.escapeChars value.toList else value.toList
      let quote := quoteFor wrapper text
      ' ' :: name.toList ++ '=' :: quote :: text ++ [quote]

def write (wrapper : Char) (escape : Bool) (s : AttributeSet) : String :=
  String.ofList (s.entries.flatMap (writeEntry wrapper escape))

theorem find?_put (name other : String) (value : AttributeValue)
    (entries : List (String × AttributeValue)) :
    Dict.find? (put name value entries) other =
      if name = other then some value else Dict.find? entries other := by
  induction entries with
  | nil => simp [put, Dict.find?]
  | cons entry rest ih =>
      obtain ⟨n, v⟩ := entry
      by_cases hn : n = name
      · subst hn
        by_cases h : n = other <;> simp [put, Dict.find?, h]
      · by_cases ho : n = other
        · subst ho
          simp [put, Dict.find?, hn, Ne.symm hn]
        · simp [put, Dict.find?, hn, ho, ih]

theorem merge_flag_class (s : AttributeSet) (value : Bool) : s.merge "class" (.flag value) = s := rfl

theorem merge_flag_id (s : AttributeSet) (value : Bool) : s.merge "id" (.flag value) = s := by
  simp [merge]

end AttributeSet

end Haml
