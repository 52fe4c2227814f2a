import Haml.Command.Arguments
/-! Invocations: what a command line asks for. -/

namespace Haml.Command

structure RenderRequest where
  /-- Files of data, by the names of their variables. -/
  data : List Binding
  vars : List Binding
  escapeHtml : Bool
  suppressEval : Bool
  format : Option Format
  templateId : Option String
  deriving DecidableEq, Repr

inductive Task where
  | render (file : String) (request : RenderRequest) (output : Option String)
  | check (files : List String)
  | verify (template expected : String) (request : RenderRequest) (diff : Bool)
  deriving DecidableEq, Repr

structure Invocation where
  /-- The directory of the configuration, if it is not the current one. -/
  path : Option String
  verbose : Bool
  task : Option Task
  deriving DecidableEq, Repr

namespace Invocation

def request (a : Arguments) : RenderRequest where
  data := a.bindings .data
  vars := a.bindings .var
  escapeHtml := a.has .escapeHtml
  suppressEval := a.has .suppressEval
  format := (a.value? .format).bind Format.ofName?
  templateId := a.value? .templateId

def missing {α : Type} (verb : Verb) : Except Stop α :=
  refuse ("`" ++ verb.name ++ "` needs more arguments")

def taskOf (verb : Verb) (a : Arguments) : Except Stop Task :=
  match verb, a.words with
  | .render, [file] => .ok (.render file (request a) (a.value? .output))
  | .check, file :: files => .ok (.check (file :: files))
  | .verify, [template, expected] => .ok (.verify template expected (request a) (a.has .diff))
  | verb, _ => missing verb

/-- Reads a command line. What is said after the verb goes before what is said in front of it. -/
def parse (args : List String) : Except Stop Invocation := do
  match ← Arguments.none.read none args with
  | (outer, none) => return ⟨outer.value? .path, outer.has .verbose, none⟩
  | (outer, some (verb, rest)) =>
      let (inner, _) ← Arguments.none.read (some verb) rest
      let task ← taskOf verb inner
      return ⟨(inner.value? .path).or (outer.value? .path),
        inner.has .verbose || outer.has .verbose, some task⟩

end Invocation

end Haml.Command
