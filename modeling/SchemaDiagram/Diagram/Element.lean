/-!
# SchemaDiagram.Diagram.Element

The names by which a diagram and its users address tables, headers and fields.

1. The node of a table is the table's name with `parent` behind it, that of its header is
   `table.header`, and that of a field is `table.field`.
2. A text is read as `table`, `table.header` or `table.field`, parted at the first point
   (`Element.ofText`); as the name of a node, a text without a point is the table's node
   (`Element.ofNode`).
-/

namespace SchemaDiagram

/-! ## Names of nodes -/

/-- What the name of a table's node ends with. -/
def tableSuffix : String := "parent"

/-- What stands for the header behind the point. -/
def headerName : String := "header"

/-- The node of a table. -/
def tableNode (table : String) : String := table ++ tableSuffix

/-- The node of a field. -/
def fieldNode (table field : String) : String := table ++ "." ++ field

/-- The node of a table's header. -/
def headerNode (table : String) : String := fieldNode table headerName

/-! ## Elements -/

/-- A part of a diagram. -/
inductive Element where
  | table (name : String)
  | header (table : String)
  | field (table field : String)
  deriving DecidableEq, Repr

namespace Element

/-- The table that an element belongs to. -/
def tableName : Element → String
  | .table t | .header t | .field t _ => t

/-- The element that a text names: what comes before the first point is the table. -/
def ofText (s : String) : Element :=
  let before := s.toList.takeWhile (· != '.')
  match s.toList.dropWhile (· != '.') with
  | [] => .table s
  | _ :: after =>
    if String.ofList after = headerName then .header (String.ofList before)
    else .field (String.ofList before) (String.ofList after)

/-- A text without an ending that it has; none if it has another one or nothing before it. -/
def withoutSuffix? (ending text : List Char) : Option (List Char) :=
  if ending.isSuffixOf text && ending.length < text.length then
    some (text.take (text.length - ending.length))
  else none

/-- The element of a node.  The name of a table that itself ends in `parent` is read as the node of
a shorter one; whoever knows the tables can tell. -/
def ofNode (s : String) : Element :=
  if s.toList.contains '.' then ofText s
  else match withoutSuffix? tableSuffix.toList s.toList with
    | some name => .table (String.ofList name)
    | none => ofText s

end Element

end SchemaDiagram
