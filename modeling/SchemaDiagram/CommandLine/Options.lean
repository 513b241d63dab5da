import SchemaDiagram.Compilation

/-!
# SchemaDiagram.CommandLine.Options

The arguments of the command line.  The first one is the document; options follow, each with a
value, and the last of two with the same name holds.
-/

namespace SchemaDiagram.CommandLine

/-- The forms a diagram can be written in. -/
inductive Format where
  | json
  | mermaid
  deriving DecidableEq, Repr

/-- The format of a name. -/
def Format.ofName? (s : String) : Option Format :=
  if s = "json" then some .json else if s = "mermaid" then some .mermaid else none

/-- The options, each of which takes a value. -/
inductive Flag where
  | output
  | theme
  | layout
  | format
  | locate
  deriving DecidableEq, Repr

/-- The option that an argument is, in its short or its long form. -/
def Flag.ofArg? (arg : String) : Option Flag :=
  if arg = "-o" || arg = "--output" then some .output
  else if arg = "-t" || arg = "--theme" then some .theme
  else if arg = "-c" || arg = "--config" then some .layout
  else if arg = "-f" || arg = "--format" then some .format
  else if arg = "-l" || arg = "--locate" then some .locate
  else none

/-- What a run is asked to do. -/
structure Options where
  input : String
  output : Option String := none
  theme : String := ({} : Appearance).theme
  layout : Option String := none
  format : Format := .json
  /-- The element to look for, instead of drawing the diagram. -/
  locate : Option String := none
  deriving DecidableEq, Repr

/-- Why arguments are no options. -/
inductive UsageError where
  | noInput
  | missingValue (arg : String)
  | invalidFormat (value : String)
  | unknownOption (arg : String)
  deriving DecidableEq, Repr

/-- How the program is called. -/
def usage (program : String) : String :=
  String.join ([
    "Usage: " ++ program ++ " <input.dbml> [options]",
    "",
    "Options:",
    "  -o, --output <file>    Output file (default: stdout)",
    "  -t, --theme <name>     Theme tag passed to nodes (default: light)",
    "  -c, --config <file>    Diagram layout config (JSON)",
    "  -f, --format <format>  Output format: json, mermaid (default: json)",
    "  -l, --locate <id>      Print the source span of a diagram element"].map (· ++ "\n"))

/-- What is printed for arguments that are no options. -/
def UsageError.message (program : String) : UsageError → String
  | noInput => usage program
  | missingValue arg => "Missing value for " ++ arg ++ "\n"
  | invalidFormat value => "Invalid format: " ++ value ++ "\n"
  | unknownOption arg => "Unknown option: " ++ arg ++ "\n" ++ usage program

namespace Options

/-- Options with the value of one more flag. -/
def set (o : Options) (flag : Flag) (value : String) : Except UsageError Options :=
  match flag with
  | .output => .ok { o with output := some value }
  | .theme => .ok { o with theme := value }
  | .layout => .ok { o with layout := some value }
  | .locate => .ok { o with locate := some value }
  | .format =>
    match Format.ofName? value with
    | some format => .ok { o with format }
    | none => .error (.invalidFormat value)

/-- Options with those of the arguments added. -/
def addArgs (o : Options) : List String → Except UsageError Options
  | [] => .ok o
  | [arg] =>
    match Flag.ofArg? arg with
    | some _ => .error (.missingValue arg)
    | none => .error (.unknownOption arg)
  | arg :: value :: rest =>
    match Flag.ofArg? arg with
    | none => .error (.unknownOption arg)
    | some flag =>
      match o.set flag value with
      | .error e => .error e
      | .ok o => o.addArgs rest

/-- The options that arguments stand for. -/
def ofArgs : List String → Except UsageError Options
  | [] => .error .noInput
  | input :: rest => ({ input } : Options).addArgs rest

end Options

end SchemaDiagram.CommandLine
