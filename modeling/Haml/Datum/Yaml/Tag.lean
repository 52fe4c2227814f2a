import Haml.Datum.Yaml.Cursor
/-! Names in YAML: anchors, tags, and the directives in front of a document. -/

namespace Haml.Yaml

def name (k : Cursor) : Option (String × Cursor) :=
  let (text, k) := k.takeWhile isNameChar
  let ends (c : Char) : Bool := isSpace c || ['?', ':', ',', ']', '}', '%', '@', '\x60'].contains c
  if text.isEmpty || !(k.rest.head?.map ends).getD true then none
  else some (String.ofList text, k)

def isTagChar (c : Char) : Bool :=
  isNameChar c ||
    [';', '/', '?', ':', '@', '&', '=', '+', '$', '.', '%', '!', '~', '*', '\'', '(', ')'].contains c

def isAddressChar (c : Char) : Bool := isTagChar c || c == ',' || c == '[' || c == ']'

def bytes? : List Char → Option (List UInt8)
  | [] => some []
  | '%' :: a :: b :: cs => do
      let n ← Json.codeUnit? [a, b]
      return UInt8.ofNat n :: (← bytes? cs)
  | c :: cs => if c == '%' then none else (bytes? cs).map (UInt8.ofNat c.toNat :: ·)

def tagText (isChar : Char → Bool) (front : List Char) (k : Cursor) :
    Option (String × Cursor) := do
  let (text, k) := k.takeWhile isChar
  if front.isEmpty && text.isEmpty then none
  let bytes ← bytes? (front.drop 1 ++ text)
  return (← String.fromUTF8? ⟨bytes.toArray⟩, k)

def handle (k : Cursor) : List Char × Cursor :=
  let (text, after) := k.next.takeWhile isNameChar
  if after.startsWith '!' then ('!' :: text ++ ['!'], after.next) else ('!' :: text, after)

structure Tag where
  handle : String
  suffix : String
  deriving DecidableEq

namespace Tag

def isHandle (cs : List Char) : Bool := 1 < cs.length && cs.getLast? == some '!'

def whole (k : Cursor) : Option (Tag × Cursor) := do
  let (text, k) ← tagText isAddressChar [] k
  if k.startsWith '>' then return (⟨"", text⟩, k.next) else none

def short (k : Cursor) : Option (Tag × Cursor) := do
  let (front, after) := Yaml.handle k
  if isHandle front then
    let (suffix, k) ← tagText isTagChar [] after
    return (⟨String.ofList front, suffix⟩, k)
  else
    let (suffix, k) ← tagText isTagChar front after
    return (if suffix.isEmpty then ⟨"", "!"⟩ else ⟨"!", suffix⟩, k)

def read (inFlow : Bool) (k : Cursor) : Option (Tag × Cursor) := do
  let (tag, k) ← if k.next.startsWith '<' then whole (k.skip 2) else short k
  if startsSpace k.rest || (inFlow && k.startsWith ',') then return (tag, k) else none

end Tag

inductive Directive where
  | version (major minor : Nat)
  /-- What a handle of tags stands for. -/
  | handle (name text : String)
  deriving DecidableEq

namespace Directive

def number (k : Cursor) : Option (Nat × Cursor) :=
  let (digits, k) := k.takeWhile Char.isDigit
  if digits.isEmpty || 9 < digits.length then none
  else some (Decimal.natOfDigits 10 digits, k)

def versionOf (k : Cursor) : Option (Directive × Cursor) := do
  let (major, k) ← number (k.dropWhile isBlank)
  if k.startsWith '.' then
    let (minor, k) ← number k.next
    return (version major minor, k)
  else none

def handleOf (k : Cursor) : Option (Directive × Cursor) := do
  let k := k.dropWhile isBlank
  if !k.startsWith '!' then none
  let (name, k) := Yaml.handle k
  if name != ['!'] && !Tag.isHandle name then none
  if !(k.rest.head?.map isBlank).getD false then none
  let (text, k) ← tagText isAddressChar [] (k.dropWhile isBlank)
  if startsSpace k.rest then return (handle (String.ofList name) text, k) else none

def read (k : Cursor) : Option (Directive × Cursor) := do
  let (name, k) := k.takeWhile isNameChar
  if !startsSpace k.rest then none
  let (d, k) ← match String.ofList name with
    | "YAML" => versionOf k
    | "TAG" => handleOf k
    | _ => none
  return (d, ← k.endOfLine)

end Directive

end Haml.Yaml
