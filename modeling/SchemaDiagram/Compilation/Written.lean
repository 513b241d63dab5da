import SchemaDiagram.Compilation
import SchemaDiagram.Json.Float
import SchemaDiagram.Json.Writer
import SchemaDiagram.Layout.Reader

/-!
# SchemaDiagram.Compilation.Written

The JSON forms of positions, spans, diagnostics and diagrams.  The order of the members is part of
the form; members without a value are left out.
-/

namespace SchemaDiagram

/-- A position. -/
def Position.json (p : Position) : Json :=
  .object [("line", .nat p.line), ("column", .nat p.column)]

/-- A span. -/
def Span.json (s : Span) : Json := .object [("start", s.start.json), ("end", s.finish.json)]

/-- A diagnostic. -/
def Diagnostic.json (d : Diagnostic) : Json :=
  .object [
    ("message", .string d.message),
    ("location", d.location.json),
    ("severity", .string d.severity.text),
    ("code", .nat d.code)]

/-- A place in a diagram. -/
def Point.json (p : Point) : Json := .object [("x", .float p.x), ("y", .float p.y)]

/-- An extent. -/
def Size.json (s : Size) : Json :=
  .object [("width", .float s.width), ("height", .float s.height)]

namespace Node

/-- What a node shows. -/
def dataJson (n : Node) : Json :=
  .object ([("label", .string n.label), ("theme", .string n.theme)]
    ++ Json.optional "fieldType" .string n.typeLabel
    ++ Json.optional "note" .string n.note
    ++ Json.optional "headerColor" .string n.headerColor
    ++ [("selected", .bool n.isSelected)])

/-- A node. -/
def json (n : Node) : Json :=
  .object ([("id", .string n.id), ("kind", .string n.kind.text), ("position", n.position.json),
      ("size", n.size.json)]
    ++ Json.optional "parentId" .string n.parent
    ++ [("data", n.dataJson)])

end Node

/-- An edge. -/
def Edge.json (e : Edge) : Json :=
  .object [
    ("id", .string e.id),
    ("source", .string e.source),
    ("target", .string e.target),
    ("sourceHandle", .string Edge.sourceHandle),
    ("targetHandle", .string Edge.targetHandle),
    ("startLabel", .string e.startLabel),
    ("endLabel", .string e.endLabel),
    ("animated", .bool e.isAnimated)]

/-- A compilation. -/
def Compilation.json (c : Compilation) : Json :=
  .object [
    ("nodes", .array (c.nodes.map (·.json))),
    ("edges", .array (c.edges.map (·.json))),
    ("diagnostics", .array (c.diagnostics.map (·.json)))]

/-- The JSON text of the diagram of a source text, without blanks.  A layout that is given has to be
valid. -/
def compileToText (source : String) (theme layout : Option String) :
    Except Layout.ReadError String := do
  let layout ← (match layout with
    | some text => Layout.ofText text
    | none => .ok {})
  let appearance : Appearance := { layout, theme := theme.getD ({} : Appearance).theme }
  return (Compilation.ofSource appearance source).json.compact

end SchemaDiagram
