import SchemaDiagram.Diagram
import SchemaDiagram.Document.Source

/-!
# SchemaDiagram.Compilation

From a source text to a diagram.

1. A compilation either has nodes and edges, or diagnostics that say why it has none.
2. A blank text is an empty diagram.
3. Every failure becomes a list of diagnostics, never an empty one (`Failure.diagnostics`).
-/

namespace SchemaDiagram

/-! ## Failures -/

/-- Why there is no result. -/
inductive Failure where
  /-- A failure that brings its diagnostics along, possibly none. -/
  | diagnosed (diagnostics : List Diagnostic)
  /-- A text that is no document. -/
  | malformed (error : SyntaxError)
  /-- Any other failure, with its message. -/
  | other (message : String)
  deriving DecidableEq, Repr

namespace Failure

/-- What a message says of a failure. -/
def message : Failure → String
  | diagnosed ds => summary ds
  | malformed e => e.message
  | other m => m

/-- The diagnostics of a failure: its own, or one made of its message. -/
def diagnostics : Failure → List Diagnostic
  | diagnosed [] => [.unstructured (summary [])]
  | diagnosed ds => ds
  | malformed e => [e.diagnostic]
  | other m => [.unstructured m]

end Failure

/-! ## Compilations -/

/-- The schema that a source text declares. -/
def Schema.ofSource (source : String) : Except SyntaxError Schema :=
  (Document.ofSource source).map fun d => .ofDocument (some d)

/-- What a diagram depends on besides its schema. -/
structure Appearance where
  layout : Layout := {}
  theme : String := "light"
  deriving DecidableEq, Repr

/-- A diagram, or the diagnostics of a failed attempt. -/
structure Compilation where
  nodes : List Node := []
  edges : List Edge := []
  diagnostics : List Diagnostic := []
  deriving DecidableEq, Repr

namespace Compilation

/-- Whether there is nothing to report. -/
def isOk (c : Compilation) : Bool := c.diagnostics.isEmpty

/-- The diagram of a schema. -/
def ofSchema (a : Appearance) (s : Schema) : Compilation where
  nodes := Diagram.nodes a.layout a.theme s
  edges := Diagram.edges s

/-- The diagram of a source text. -/
def ofSource (a : Appearance) (source : String) : Compilation :=
  if Text.isAllBlank source.toList then {}
  else match Schema.ofSource source with
    | .ok s => ofSchema a s
    | .error e => { diagnostics := (Failure.malformed e).diagnostics }

end Compilation

end SchemaDiagram
