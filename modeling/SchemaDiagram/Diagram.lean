import SchemaDiagram.Diagram.Element
import SchemaDiagram.Layout
import SchemaDiagram.Schema
import SchemaDiagram.Text.Columns

/-!
# SchemaDiagram.Diagram

The nodes and edges that show a schema.

1. A table is a container with a header and one row a field inside.  Containers stand side by side
   at a fixed distance; header and rows are placed relative to their container.
2. A container is as wide as its widest text, a row keeps to the bounds of the layout.
3. A reference is an edge between the nodes of its ends: of the first field named there, or of the
   container if no field is.
-/

namespace SchemaDiagram

/-! ## Nodes and edges -/

/-- The kinds of node. -/
inductive NodeKind where
  | container
  | header
  | field
  deriving DecidableEq, Repr

/-- The word for a kind. -/
def NodeKind.text : NodeKind → String
  | container => "container"
  | header => "header"
  | field => "field"

/-- A place, from the left and from the top. -/
structure Point where
  x : Float
  y : Float
  deriving DecidableEq, Repr

/-- An extent. -/
structure Size where
  width : Float
  height : Float
  deriving DecidableEq, Repr

/-- A node.  A container has its place in the diagram, its parts have theirs in it. -/
structure Node where
  id : String
  kind : NodeKind
  position : Point
  size : Size
  /-- The container that a header or a field is part of. -/
  parent : Option String := none
  label : String
  /-- A word for the appearance, which means nothing here. -/
  theme : String
  typeLabel : Option String := none
  note : Option String := none
  headerColor : Option String := none
  isSelected : Bool := false
  deriving DecidableEq, Repr

/-- An edge. -/
structure Edge where
  id : String
  source : String
  target : String
  startLabel : String
  endLabel : String
  isAnimated : Bool := false
  deriving DecidableEq, Repr

/-- Where edges leave a node. -/
def Edge.sourceHandle : String := "source"

/-- Where edges reach a node. -/
def Edge.targetHandle : String := "target"

/-! ## Measuring -/

namespace Layout

/-- The width of a text. -/
def textWidth (l : Layout) (text : String) : Float :=
  Float.ofNat (Text.columns text.toList) * l.charWidth

/-- The width of a row of a table: a field's name and its type side by side. -/
def fieldWidth (l : Layout) (f : Schema.Field) : Float :=
  l.textWidth f.name + l.textWidth f.typeLabel

/-- The width of a table: its widest text, with some space around it. -/
def tableWidth (l : Layout) (t : Schema.Table) : Float :=
  larger (l.textWidth t.name) ((t.fields.map l.fieldWidth).foldl larger 0) + l.labelPadding

/-- The height of a table: a row for the header and one for each field, and the space below. -/
def tableHeight (l : Layout) (t : Schema.Table) : Float :=
  Float.ofNat (t.fields.length + 1) * l.rowHeight + l.padding

/-- The extent of the rows of a table. -/
def rowSize (l : Layout) (t : Schema.Table) : Size :=
  ⟨smaller (larger (l.tableWidth t) l.minRowWidth) l.maxRowWidth, l.rowHeight⟩

end Layout

/-! ## Nodes of a schema -/

namespace Diagram

/-- The container of a table, at its place in the row of tables. -/
def container (l : Layout) (theme : String) (index : Nat) (t : Schema.Table) : Node where
  id := tableNode t.name
  kind := .container
  position := ⟨l.originX + Float.ofNat index * l.tablePitch, l.originY⟩
  size := ⟨l.tableWidth t, l.tableHeight t⟩
  label := t.name
  theme := theme

/-- The header of a table. -/
def header (l : Layout) (theme : String) (t : Schema.Table) : Node where
  id := headerNode t.name
  kind := .header
  position := ⟨0, 0⟩
  size := l.rowSize t
  parent := some (tableNode t.name)
  label := t.name
  theme := theme
  headerColor := t.headerColor

/-- A field of a table, in the given row below the header. -/
def row (l : Layout) (theme : String) (t : Schema.Table) (index : Nat) (f : Schema.Field) :
    Node where
  id := fieldNode t.name f.name
  kind := .field
  position := ⟨0, Float.ofNat (index + 1) * l.rowHeight⟩
  size := l.rowSize t
  parent := some (tableNode t.name)
  label := f.name
  theme := theme
  typeLabel := some f.typeLabel
  note := f.note

/-- The nodes of a table: container, header and fields. -/
def tableNodes (l : Layout) (theme : String) (index : Nat) (t : Schema.Table) : List Node :=
  container l theme index t :: header l theme t :: t.fields.mapIdx (row l theme t)

/-- The nodes of a schema, table by table. -/
def nodes (l : Layout) (theme : String) (s : Schema) : List Node :=
  (s.tables.mapIdx (tableNodes l theme)).flatten

/-! ## Edges of a schema -/

/-- The node that one end of a reference is attached to, whether there is such a node or not. -/
def endNode (e : Schema.Endpoint) : String :=
  match e.fieldNames with
  | [] => tableNode e.tableName
  | first :: _ => fieldNode e.tableName first

/-- The edge of a reference. -/
def edge (r : Schema.Reference) : Edge where
  id := "e-" ++ endNode r.source ++ "-" ++ endNode r.target
  source := endNode r.source
  target := endNode r.target
  startLabel := r.source.symbol
  endLabel := r.target.symbol

/-- The edges of a schema, one for each reference. -/
def edges (s : Schema) : List Edge := s.references.map edge

end Diagram

end SchemaDiagram
