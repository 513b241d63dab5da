import SchemaDiagram.CommandLine

/-!
# SchemaDiagram.Main

The program: it reads the files that the arguments name, runs on them, and carries the outcome out.
-/

namespace SchemaDiagram.CommandLine

/-- The fault behind an error of the system. -/
def FileFault.ofError (e : IO.Error) : FileFault :=
  match e with
  | .noFileOrDirectory .. => .notFound
  | .inappropriateType .. => .isDirectory
  | _ => .other (toString e)

/-- The text of a file, or why it has none. -/
def readText (path : String) : IO (Except FileFault String) := do
  try
    let bytes ← IO.FS.readBinFile path
    return match String.fromUTF8? bytes with
      | some text => .ok text
      | none => .error .notText
  catch e => return .error (.ofError e)

/-- The files that arguments name, read beforehand. -/
def readFiles (args : List String) : IO Files := do
  match Options.ofArgs args with
  | .error _ => return { read := fun _ => .error .notFound, refuses := fun _ => none }
  | .ok o =>
    let input ← readText o.input
    let layout ← match o.layout with
      | some path => readText path
      | none => pure (.error .notFound)
    return { read := fun path => if path = o.input then input else layout, refuses := fun _ => none }

/-- Carries an outcome out; a file that cannot be written is a failure of its own. -/
def carryOut (outcome : Outcome) : IO UInt32 := do
  match outcome.written with
  | none =>
    IO.print outcome.stdout
    IO.eprint outcome.stderr
    return outcome.exitCode.toUInt32
  | some (path, text) =>
    try
      IO.FS.writeFile path text
      return outcome.exitCode.toUInt32
    catch e =>
      IO.eprint (RunError.write path (.ofError e)).message
      return 1

end SchemaDiagram.CommandLine

open SchemaDiagram.CommandLine in
/-- Runs the program on the arguments of the command line. -/
def main (args : List String) : IO UInt32 := do
  let files ← readFiles args
  carryOut (execute "nirmitee" files args)
