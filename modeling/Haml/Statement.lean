import Haml.Text.Blank
/-! Statements: what the code of a script line asks for. -/

namespace Haml

inductive Statement where
  | ifTrue (condition : String)
  | ifFalse (condition : String)
  | elseIf (condition : String)
  | otherwise
  | each (targets : List String) (items : String)
  | assign (name value : String)
  /-- Written out by habit; blocks end by themselves. -/
  | blockEnd
  | expression (code : String)
  deriving DecidableEq, Repr

namespace Statement

def isIdentifierStart (c : Char) : Bool := c.isAlpha || c == '_'

def isIdentifierChar (c : Char) : Bool := c.isAlphanum || c == '_'

def isIdentifier : List Char → Bool
  | [] => false
  | c :: cs => isIdentifierStart c && cs.all isIdentifierChar

def assignment? (code : List Char) : Option Statement :=
  match code.dropWhile (· != '=') with
  | [] => none
  | _ :: '=' :: _ => none
  | _ :: value =>
      let name := Text.trim (code.takeWhile (· != '='))
      if isIdentifier name then
        some (.assign (String.ofList name) (String.ofList (Text.trim value)))
      else none

def loop? (code : List Char) : Option Statement :=
  match Text.splitOnce " in ".toList code with
  | none => none
  | some (targets, items) =>
      let names := (targets.splitOn ',').map Text.trim
      if names.all isIdentifier then
        some (.each (names.map String.ofList) (String.ofList (Text.trim items)))
      else none

def keyword? (keyword rest : List Char) : Option Statement :=
  let condition := String.ofList rest
  match String.ofList keyword with
  | "if" => if rest.isEmpty then none else some (.ifTrue condition)
  | "unless" => if rest.isEmpty then none else some (.ifFalse condition)
  | "elif" | "elsif" => if rest.isEmpty then none else some (.elseIf condition)
  | "else" =>
      if rest.isEmpty then some .otherwise
      else
        ("if ".toList.isPrefixOf? rest).map fun condition =>
          .elseIf (String.ofList (Text.trim condition))
  | "end" | "endif" | "endfor" | "endunless" => if rest.isEmpty then some .blockEnd else none
  | "for" => loop? rest
  | "set" => assignment? rest
  | _ => none

def dropColon (code : List Char) : List Char :=
  Text.trimEnd ((Text.dropSuffix? [':'] code).getD code)

/-- A keyword may close its line with a colon; what opens with none is an assignment or else an
expression. -/
def readChars (code : List Char) : Statement :=
  let bare := dropColon code
  let keyword := bare.takeWhile fun c => !Text.isBlank c
  let rest := Text.trim (bare.dropWhile fun c => !Text.isBlank c)
  (keyword? keyword rest).getD <| (assignment? code).getD (.expression (String.ofList code))

def read (code : String) : Statement := readChars (Text.trim code.toList)

end Statement

end Haml
