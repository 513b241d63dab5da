import SchemaDiagram.Compilation
import SchemaDiagram.Locator

/-!
# SchemaDiagram.Session

The state of an open document between compilations: the table that is selected, the tables it was
selected among, and the diagnostics of the last attempt.

1. The selection belongs to a list of tables.  It is dropped when a compilation brings another
   list; a failed compilation brings none.
2. What the editor has to do is returned as a list of calls.
-/

namespace SchemaDiagram

/-- What a session asks of the editor that shows the document. -/
inductive EditorCall where
  | reveal (span : Span)
  | select (span : Span)
  | cursor (position : Position)
  deriving DecidableEq, Repr

/-- The state of an open document. -/
structure Session where
  selected : Option String := none
  tableNames : List String := []
  /-- The diagnostics of the last compilation; none before the first. -/
  diagnostics : Option (List Diagnostic) := none
  deriving DecidableEq, Repr

/-- The tables of a compilation. -/
def Compilation.tableNames (c : Compilation) : List String :=
  (c.nodes.filter (·.kind == .container)).map (·.label)

namespace Session

/-! ## Selection -/

/-- The element that an id means: that of a node, unless only the whole id is the name of a
table. -/
def element (s : Session) (id : String) : Element :=
  match Element.ofNode id with
  | .table t => if !s.tableNames.contains t && s.tableNames.contains id then .table id else .table t
  | e => e

/-- Selects the table that an element belongs to. -/
def select (s : Session) (id : String) : Session :=
  { s with selected := some (s.element id).tableName }

/-- Selects nothing. -/
def deselect (s : Session) : Session := { s with selected := none }

/-- Takes over the tables of a compilation. -/
def adopt (s : Session) (c : Compilation) : Session :=
  if c.tableNames = s.tableNames then s else { s.deselect with tableNames := c.tableNames }

/-! ## Compiling -/

/-- Whether a node belongs to the selected table. -/
def hasSelected (s : Session) (node : String) : Bool :=
  s.selected = some (Element.ofNode node).tableName

/-- A compilation with the selected table and its edges marked, and nothing else. -/
def mark (s : Session) (c : Compilation) : Compilation where
  nodes := c.nodes.map fun n =>
    { n with isSelected := n.kind == .container && s.hasSelected n.id }
  edges := c.edges.map fun e =>
    { e with isAnimated := s.hasSelected e.source || s.hasSelected e.target }
  diagnostics := c.diagnostics

/-- Compiles the document anew. -/
def compile (s : Session) (a : Appearance) (source : String) : Session × Compilation :=
  let c := Compilation.ofSource a source
  let s := { (if c.isOk then s.adopt c else s) with diagnostics := some c.diagnostics }
  (s, s.mark c)

/-! ## The editor -/

/-- Where an element is declared, and the calls that show it. -/
def open? (s : Session) (source id : String) : Option Span × List EditorCall :=
  match Locator.element? source (s.element id) with
  | none => (none, [])
  | some span => (some span, [.reveal span, .select span])

/-- The calls that show the place of a diagnostic. -/
def showDiagnostic (d : Diagnostic) : List EditorCall :=
  [.reveal (.point d.location), .cursor d.location]

end Session

end SchemaDiagram
