import Haml.Datum.Toml.Quoted
import Haml.Datum.Toml.Scalar
import Haml.Datum.Toml.Tree
/-! Data in TOML. -/

namespace Haml.Toml

open Json (Reader)

def isBareChar (c : Char) : Bool := c.isAlphanum || c == '_' || c == '-'

def skipBlank (cs : List Char) : List Char := cs.dropWhile isBlank

def simpleKey (cs : List Char) : Option (String × List Char) :=
  match short? cs with
  | some found => found.map fun (text, rest) => (String.ofList text, rest)
  | none =>
      let name := cs.takeWhile isBareChar
      if name.isEmpty then none else some (String.ofList name, cs.dropWhile isBareChar)

def key : Nat → Reader (List String × String)
  | 0, _ => none
  | steps + 1, cs => do
      let (first, rest) ← simpleKey (skipBlank cs)
      match skipBlank rest with
      | '.' :: rest => do
          let ((path, last), rest) ← key steps rest
          return ((first :: path, last), rest)
      | rest => return (([], first), rest)

def skipComment (cs : List Char) : Option (List Char) :=
  match cs with
  | '#' :: cs =>
      let rest := cs.dropWhile fun c => !isControl c
      if rest.isEmpty || (lineEnd? rest).isSome then some rest else none
  | cs => some cs

def skipSpace : Nat → List Char → Option (List Char)
  | 0, _ => none
  | steps + 1, cs => do
      let rest ← skipComment (skipBlank cs)
      match lineEnd? rest with
      | some rest => skipSpace steps rest
      | none => return rest

def endOfLine (cs : List Char) : Option (List Char) := do
  let rest ← skipComment (skipBlank cs)
  if rest.isEmpty then some [] else lineEnd? rest

def space (cs : List Char) : Option (List Char) := skipSpace (cs.length + 1) cs

mutual

def value : Nat → Reader Datum
  | 0, _ => none
  | steps + 1, cs =>
      match (long? cs).or (short? cs) with
      | some found => found.map fun (text, rest) => (.text (String.ofList text), rest)
      | none =>
          match cs with
          | '[' :: rest => (items steps rest).map fun (ds, rest) => (.list ds, rest)
          | '{' :: rest =>
              (entries steps [] rest).map fun (es, rest) => (.ofEntries (Tree.toEntries es), rest)
          | cs => scalar? cs

def items : Nat → Reader (List Datum)
  | 0, _ => none
  | steps + 1, cs => do
      match ← space cs with
      | ']' :: rest => return ([], rest)
      | cs => do
          let (d, rest) ← value steps cs
          match ← space rest with
          | ',' :: rest => do
              let (ds, rest) ← items steps rest
              return (d :: ds, rest)
          | ']' :: rest => return ([d], rest)
          | _ => none

def entries : Nat → Entries → Reader Entries
  | 0, _, _ => none
  | steps + 1, done, cs => do
      match ← space cs with
      | '}' :: rest => return (done, rest)
      | cs => do
          let ((path, last), rest) ← key (cs.length + 1) cs
          let '=' :: rest := skipBlank rest | none
          let (d, rest) ← value steps (skipBlank rest)
          let done ← Tree.alongKey (Tree.addValue last d) path done
          match ← space rest with
          | ',' :: rest => entries steps done rest
          | '}' :: rest => return (done, rest)
          | _ => none

end

def lines : Nat → List String → Entries → List Char → Option Entries
  | 0, _, _, _ => none
  | steps + 1, path, root, cs => do
      let rest ← space cs
      match rest with
      | [] => return root
      | '[' :: '[' :: rest => do
          let ((path, last), rest) ← key (rest.length + 1) rest
          let ']' :: ']' :: rest := rest | none
          let rest ← endOfLine rest
          lines steps (path ++ [last]) (← Tree.alongHeader (Tree.openElement last) path root) rest
      | '[' :: rest => do
          let ((path, last), rest) ← key (rest.length + 1) rest
          let ']' :: rest := rest | none
          let rest ← endOfLine rest
          lines steps (path ++ [last]) (← Tree.alongHeader (Tree.openTable last) path root) rest
      | cs => do
          let ((keys, last), rest) ← key (cs.length + 1) cs
          let '=' :: rest := rest | none
          let (d, rest) ← value (rest.length + 1) (skipBlank rest)
          let rest ← endOfLine rest
          lines steps path (← Tree.assign path keys last d root) rest

def dropMark : List Char → List Char
  | '\ufeff' :: cs => cs
  | cs => cs

def read (source : String) : Option Datum :=
  let cs := dropMark source.toList
  (lines (cs.length + 1) [] [] cs).map fun root => .ofEntries (Tree.toEntries root)

end Haml.Toml
