import Haml.Command.Invocation
import Haml.Compile
import Haml.Config
import Haml.Partial
import Haml.Text.Edit
import Haml.Text.Mismatch
/-! Commands: what each does with files, and what it says. -/

namespace Haml.Command

structure Outcome where
  code : Nat
  out : String
  err : String
  deriving DecidableEq, Repr

inductive Failure where
  | template (error : Error)
  | unreadable (path : String) (fault : FileFault)
  | unwritable (fault : FileFault)
  deriving DecidableEq, Repr

def line (text : String) : String := text ++ "\n"

def indented (text : String) : String :=
  String.join ((Text.lines text.toList).map fun l => line ("  " ++ String.ofList l))

def Failure.report : Failure → String
  | template error =>
      line error.code ++ line "" ++ indented error.display ++
        match error.help with
        | some help => indented ("help: " ++ help)
        | none => ""
  | unreadable path fault => line ("error: failed to read `" ++ path ++ "`: " ++ fault.text)
  | unwritable fault => line ("error: " ++ fault.text)

def RenderRequest.apply (r : RenderRequest) (o : Options) : Options :=
  { o with
    escapeHtml := r.escapeHtml || o.escapeHtml
    suppressEval := r.suppressEval || o.suppressEval
    format := r.format.getD o.format
    templateId := r.templateId.getD o.templateId }

def bindData (c : Context) (loaded : Dict Datum) : Context :=
  c.bindAll (loaded.map fun (name, d) => (name, d.toValue))

section

variable {m : Type → Type} [Monad m] (files : Files m)

abbrev Action (m : Type → Type) := ExceptT Failure m

def ofTemplate {α : Type} (x : m (Except Error α)) : Action m α :=
  (ExceptT.mk x).adapt Failure.template

def configuration (root : String) : Action m Config := do
  return (← ofTemplate (Config.load files root)).getD Config.standard

def readFile (path : String) : Action m String :=
  (ExceptT.mk (files.read path)).adapt (Failure.unreadable path)

/-- The options and the variables that a request leads to. Of two values of one variable the later
one holds, in the order of configured data, files of data, and variables. -/
def prepare (root : String) (r : RenderRequest) : Action m (Options × Context) := do
  let config ← configuration files root
  let configured ← ofTemplate (config.loadData files root)
  let given ← ofTemplate
    (DataSource.loadAll files "" (r.data.map fun b => (b.name, ⟨b.value, none⟩)) [])
  let context := bindData (bindData (Context.new (.expressions [])) configured) given
  return (r.apply config.options,
    context.bindAll (r.vars.map fun b => (b.name, Value.ofString b.value)))

def compileFile (o : Options) (path : String) : Action m Template := do
  ofTemplate (pure (Template.compile (← readFile files path) o))

def renderFile (root path : String) (r : RenderRequest) : Action m String := do
  let (options, context) ← prepare files root r
  let template ← compileFile files options path
  ofTemplate (pure (template.render context))

def render (root : String) (verbose : Bool) (path : String) (r : RenderRequest)
    (output : Option String) : Action m Outcome := do
  let text ← renderFile files root path r
  match output with
  | none => return ⟨0, text, ""⟩
  | some target =>
      (ExceptT.mk (files.write target text)).adapt Failure.unwritable
      return ⟨0, "", if verbose then line ("Wrote " ++ target) else ""⟩

def checkFile (o : Options) (verbose : Bool) (path : String) : m (Bool × Outcome) := do
  match ← (compileFile files o path).run with
  | .ok _ => return (true, ⟨0, if verbose then line ("ok " ++ path) else "", ""⟩)
  | .error failure => return (false, ⟨1, "", line ("failed: " ++ path) ++ failure.report⟩)

def checkSummary (results : List (Bool × Outcome)) : Outcome :=
  let total := toString results.length
  let failed := results.countP fun (compiled, _) => !compiled
  let out := String.join (results.map fun (_, o) => o.out)
  let err := String.join (results.map fun (_, o) => o.err)
  if failed = 0 then
    ⟨0, out ++ line ("Check passed: " ++ total ++ " template(s) compiled."), err⟩
  else
    ⟨1, out, err ++ line "" ++
      line (toString failed ++ " of " ++ total ++ " template(s) failed to compile.")⟩

def check (root : String) (verbose : Bool) (paths : List String) : Action m Outcome := do
  let config ← configuration files root
  let results ← ExceptT.lift (paths.mapM fun path => checkFile files config.options verbose path)
  return checkSummary results

def shownLine (text : Option (List Char)) : String :=
  match text with
  | some text => String.ofList text
  | none => "<end of file>"

def mismatchReport (path : String) (d : Text.Mismatch) : String :=
  line "Rendered output does not match." ++ line ("template: " ++ path) ++
    line ("line: " ++ toString d.line) ++ line ("  expected: " ++ shownLine d.left) ++
    line ("  rendered: " ++ shownLine d.right)

def verify (root path expected : String) (r : RenderRequest) (diff : Bool) :
    Action m Outcome := do
  let rendered ← renderFile files root path r
  let wanted ← readFile files expected
  match Text.mismatch? wanted.toList rendered.toList with
  | none => return ⟨0, line ("Verified " ++ path ++ " against " ++ expected ++ "."), ""⟩
  | some d =>
      let edits :=
        if diff then line "" ++ Text.Edit.report wanted.toList rendered.toList else ""
      return ⟨1, "", mismatchReport path d ++ edits⟩

def usage : String :=
  line "Render indentation-based markup templates to HTML." ++ line "" ++
    line "Usage: hamlet [OPTIONS] [COMMAND]" ++ line "" ++
    line "Commands:" ++
    line "  render FILE [-o FILE]              Render a template and print the result" ++
    line "  check FILES...                     Compile templates without rendering them" ++
    line "  verify TEMPLATE EXPECTED [--diff]  Compare rendered output with a file" ++ line "" ++
    line "Options:" ++
    line "  -p, --path DIRECTORY  Directory containing `hamlet.toml`" ++
    line "  -v, --verbose         Enable verbose output" ++
    line "      --no-color        Disable colored output" ++
    line "  -h, --help            Print help" ++
    line "  -V, --version         Print version" ++ line "" ++
    line "Options of `render` and `verify`:" ++
    line "      --data NAME=PATH  Bind the contents of a data file to a variable" ++
    line "      --var NAME=VALUE  Bind a string variable" ++
    line "      --escape-html     Escape the output of `=` lines" ++
    line "      --suppress-eval   Leave embedded code out" ++
    line "      --format FORMAT   Output markup format: xhtml, html4 or html5" ++
    line "      --template-id ID  Name used for the template in error locations"

def currentDirectory : String := "."

def perform (i : Invocation) : Action m Outcome :=
  let root := i.path.getD currentDirectory
  match i.task with
  | none => return ⟨1, "", line "No subcommand specified. Run `hamlet --help` for usage."⟩
  | some (.render file request output) => render files root i.verbose file request output
  | some (.check paths) => check files root i.verbose paths
  | some (.verify template expected request diff) =>
      verify files root template expected request diff

def run (args : List String) : m Outcome := do
  match Invocation.parse args with
  | .error (.refused reason) => return ⟨2, "", line ("error: " ++ reason)⟩
  | .error .help => return ⟨0, usage, ""⟩
  | .error .version => return ⟨0, line "hamlet_cli 0.1.0", ""⟩
  | .ok invocation =>
      match ← (perform files invocation).run with
      | .ok outcome => return outcome
      | .error failure => return ⟨2, "", failure.report⟩

end

end Haml.Command
