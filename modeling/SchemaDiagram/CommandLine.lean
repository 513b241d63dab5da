import SchemaDiagram.CommandLine.Options
import SchemaDiagram.Compilation.Written
import SchemaDiagram.Layout.Reader
import SchemaDiagram.Locator
import SchemaDiagram.Mermaid

/-!
# SchemaDiagram.CommandLine

The command line: it reads a document, and prints or writes its diagram, or prints where one of its
elements is declared.

1. A run either succeeds and prints or writes one text, or fails and prints why, and then it has
   changed nothing.
2. What a run does to files is returned as data (`Outcome`), and what it finds in them is given as
   `Files`.
-/

namespace SchemaDiagram.CommandLine

/-! ## Files -/

/-- Why a file cannot be read or written. -/
inductive FileFault where
  | notFound
  | isDirectory
  | notText
  /-- Any other reason, as the system words it. -/
  | other (message : String)
  deriving DecidableEq, Repr

/-- How messages word it. -/
def FileFault.message : FileFault → String
  | notFound => "No such file or directory (os error 2)"
  | isDirectory => "Is a directory (os error 21)"
  | notText => "stream did not contain valid UTF-8"
  | other m => m

/-- The files that a run finds: the texts of those it can read, and the paths it cannot write. -/
structure Files where
  read : String → Except FileFault String
  refuses : String → Option FileFault

/-! ## Running -/

/-- Why a run fails. -/
inductive RunError where
  | read (path : String) (fault : FileFault)
  | write (path : String) (fault : FileFault)
  | layout (error : Layout.ReadError)
  | notFound (id path : String)
  | compilation (path : String) (diagnostics : List Diagnostic)
  deriving DecidableEq, Repr

/-- What is printed for a run that fails: one line, or one for each diagnostic. -/
def RunError.message : RunError → String
  | read path fault => "Failed to read " ++ path ++ ": " ++ fault.message ++ "\n"
  | write path fault => "Failed to write " ++ path ++ ": " ++ fault.message ++ "\n"
  | layout e => "Failed to load config: " ++ e.message ++ "\n"
  | notFound id path => id ++ " not found in " ++ path ++ "\n"
  | compilation path ds => String.join (ds.map fun d => path ++ ":" ++ d.text ++ "\n")

/-- What a run that succeeds leaves: a text that is printed, or one that is written to a path. -/
inductive Output where
  | printed (text : String)
  | written (path text : String)
  deriving DecidableEq, Repr

namespace Options

/-- The text of a file. -/
def readFile (files : Files) (path : String) : Except RunError String :=
  match files.read path with
  | .ok text => .ok text
  | .error fault => .error (.read path fault)

/-- The measures of the diagram. -/
def readLayout (o : Options) (files : Files) : Except RunError Layout := do
  match o.layout with
  | none => return {}
  | some path =>
    let text ← readFile files path
    match Layout.ofText text with
    | .ok l => return l
    | .error e => throw (.layout e)

/-- The diagram of a document in the format that is asked for. -/
def render (o : Options) (layout : Layout) (source : String) : Except RunError String :=
  match o.format with
  | .json =>
    let c := Compilation.ofSource { layout, theme := o.theme } source
    if c.isOk then .ok c.json.pretty else .error (.compilation o.input c.diagnostics)
  | .mermaid =>
    match Schema.ofSource source with
    | .ok s => .ok (Mermaid.render s)
    | .error e => .error (.compilation o.input [e.diagnostic])

/-- Does what the options ask for.  The document is read first; an element is looked for without the
measures. -/
def run (o : Options) (files : Files) : Except RunError Output := do
  let source ← readFile files o.input
  match o.locate with
  | some id =>
    match Locator.find? source id with
    | some span => return .printed span.text
    | none => throw (.notFound id o.input)
  | none =>
    let layout ← o.readLayout files
    let text ← o.render layout source
    match o.output with
    | none => return .printed text
    | some path =>
      match files.refuses path with
      | some fault => throw (.write path fault)
      | none => return .written path text

end Options

/-! ## The whole program -/

/-- What a run leaves: its exit code, what it prints, and the file it writes. -/
structure Outcome where
  exitCode : Nat
  stdout : String := ""
  stderr : String := ""
  written : Option (String × String) := none
  deriving DecidableEq, Repr

/-- Runs the program on its arguments. -/
def execute (program : String) (files : Files) (args : List String) : Outcome :=
  match Options.ofArgs args with
  | .error e => { exitCode := 1, stderr := e.message program }
  | .ok o =>
    match o.run files with
    | .error e => { exitCode := 1, stderr := e.message }
    | .ok (.printed text) => { exitCode := 0, stdout := text ++ "\n" }
    | .ok (.written path text) => { exitCode := 0, written := some (path, text) }

end SchemaDiagram.CommandLine
