import Haml.Binding
import Haml.Options
/-! Command line arguments: which options each command takes, and how they are written. -/

namespace Haml.Command

inductive Verb where
  | render
  | check
  | verify
  deriving DecidableEq, Repr

def Verb.name : Verb → String
  | render => "render"
  | check => "check"
  | verify => "verify"

def Verb.ofName? (name : String) : Option Verb :=
  [Verb.render, .check, .verify].find? fun v => v.name = name

inductive Switch where
  | path
  | verbose
  | noColor
  | help
  | version
  | data
  | var
  | escapeHtml
  | suppressEval
  | format
  | templateId
  | output
  | diff
  deriving DecidableEq, Repr

namespace Switch

def long : Switch → String
  | path => "path"
  | verbose => "verbose"
  | noColor => "no-color"
  | help => "help"
  | version => "version"
  | data => "data"
  | var => "var"
  | escapeHtml => "escape-html"
  | suppressEval => "suppress-eval"
  | format => "format"
  | templateId => "template-id"
  | output => "output"
  | diff => "diff"

def short? : Switch → Option Char
  | path => some 'p'
  | verbose => some 'v'
  | help => some 'h'
  | version => some 'V'
  | output => some 'o'
  | _ => none

def takesValue : Switch → Bool
  | path | data | var | format | templateId | output => true
  | verbose | noColor | help | version | escapeHtml | suppressEval | diff => false

def repeats : Switch → Bool
  | data | var => true
  | _ => false

def admits (s : Switch) (value : String) : Bool :=
  match s with
  | path | output => !value.isEmpty
  | data | var => (Binding.parse value).toOption.isSome
  | format => (Format.ofName? value).isSome
  | _ => true

def everywhere : List Switch := [path, verbose, noColor, help]

def ofTemplates : List Switch := [data, var, escapeHtml, suppressEval, format, templateId]

end Switch

def switches : Option Verb → List Switch
  | none => .version :: Switch.everywhere
  | some .render => Switch.everywhere ++ Switch.ofTemplates ++ [.output]
  | some .check => Switch.everywhere
  | some .verify => Switch.everywhere ++ Switch.ofTemplates ++ [.diff]

def maxWords : Verb → Option Nat
  | .render => some 1
  | .check => none
  | .verify => some 2

inductive Stop where
  | refused (reason : String)
  | help
  | version
  deriving DecidableEq, Repr

def refuse {α : Type} (reason : String) : Except Stop α := .error (.refused reason)

/-- The arguments of one part of a command line, in order. An option without a value has an empty
one. -/
structure Arguments where
  settings : List (Switch × String)
  words : List String
  deriving DecidableEq, Repr

namespace Arguments

def none : Arguments := ⟨[], []⟩

def values (a : Arguments) (s : Switch) : List String :=
  a.settings.filterMap fun (other, value) => if other = s then some value else Option.none

def has (a : Arguments) (s : Switch) : Bool := !(a.values s).isEmpty

def value? (a : Arguments) (s : Switch) : Option String := (a.values s).head?

def bindings (a : Arguments) (s : Switch) : List Binding :=
  (a.values s).filterMap fun value => (Binding.parse value).toOption

def set (a : Arguments) (s : Switch) (value : String) : Except Stop Arguments :=
  match s with
  | .help => .error .help
  | .version => .error .version
  | s =>
      if a.has s && !s.repeats then
        refuse ("the argument `--" ++ s.long ++ "` cannot be used multiple times")
      else if !s.admits value then
        refuse ("invalid value `" ++ value ++ "` for `--" ++ s.long ++ "`")
      else .ok { a with settings := a.settings ++ [(s, value)] }

def unexpected {α : Type} (arg : String) : Except Stop α :=
  refuse ("unexpected argument `" ++ arg ++ "`")

def addWord (verb : Verb) (a : Arguments) (word : String) : Except Stop Arguments :=
  match maxWords verb with
  | some count =>
      if count ≤ a.words.length then unexpected word
      else if word.isEmpty then refuse "a file name cannot be empty"
      else .ok { a with words := a.words ++ [word] }
  | Option.none =>
      if word.isEmpty then refuse "a file name cannot be empty"
      else .ok { a with words := a.words ++ [word] }

def addWords (level : Option Verb) (a : Arguments) (words : List String) :
    Except Stop Arguments :=
  match level, words with
  | some verb, words => words.foldlM (addWord verb) a
  | Option.none, [] => .ok a
  | Option.none, word :: _ => unexpected word

/-- Reads options of one letter. The last one may have its value next to it, or still need one. -/
def letters (known : List Switch) (a : Arguments) :
    List Char → Except Stop (Arguments × Option Switch)
  | [] => .ok (a, Option.none)
  | c :: cs =>
      match known.find? fun s => s.short? == some c with
      | Option.none => unexpected ("-" ++ toString c)
      | some s =>
          if s.takesValue then
            match cs with
            | [] => .ok (a, some s)
            | '=' :: value | value => do return (← a.set s (String.ofList value), Option.none)
          else do (← a.set s "").letters known cs

def named (known : List Switch) (a : Arguments) (text : List Char) :
    Except Stop (Arguments × Option Switch) :=
  let (name, value?) := match Text.splitOnce ['='] text with
    | some (name, value) => (String.ofList name, some (String.ofList value))
    | Option.none => (String.ofList text, Option.none)
  match known.find? (fun s => s.long = name), value? with
  | Option.none, _ => unexpected ("--" ++ name)
  | some s, some value =>
      if s.takesValue then do return (← a.set s value, Option.none)
      else refuse ("unexpected value `" ++ value ++ "` for `--" ++ s.long ++ "`")
  | some s, Option.none =>
      if s.takesValue then .ok (a, some s) else do return (← a.set s "", Option.none)

def isOption (arg : String) : Bool :=
  match arg.toList with
  | '-' :: _ :: _ => true
  | _ => false

def options (known : List Switch) (a : Arguments) (arg : String) :
    Except Stop (Arguments × Option Switch) :=
  match arg.toList with
  | '-' :: '-' :: text => a.named known text
  | '-' :: text => a.letters known text
  | _ => .ok (a, Option.none)

def missingValue {α : Type} (s : Switch) : Except Stop α :=
  refuse ("a value is required for `--" ++ s.long ++ "`")

def read (level : Option Verb) :
    Arguments → List String → Except Stop (Arguments × Option (Verb × List String))
  | a, [] => .ok (a, Option.none)
  | a, "--" :: rest => do return (← a.addWords level rest, Option.none)
  | a, arg :: rest => do
      if isOption arg then
        match ← a.options (switches level) arg, rest with
        | (a, Option.none), rest => read level a rest
        | (_, some s), [] => missingValue s
        | (a, some s), value :: rest =>
            if isOption value then missingValue s else read level (← a.set s value) rest
      else
        match level with
        | some verb => read level (← a.addWord verb arg) rest
        | Option.none =>
            match Verb.ofName? arg with
            | some verb => return (a, some (verb, rest))
            | Option.none =>
                if arg = "help" then throw .help
                else refuse ("unrecognized subcommand `" ++ arg ++ "`")
  termination_by _ args => args.length

end Arguments

end Haml.Command
