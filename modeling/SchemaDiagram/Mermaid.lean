import SchemaDiagram.Schema
import SchemaDiagram.Text.Letter

/-!
# SchemaDiagram.Mermaid

A schema as a Mermaid `erDiagram`: the tables with their fields, then the references, one line
each.
-/

namespace SchemaDiagram.Mermaid

/-- A field's name or type: its words, joined by underscores. -/
def oneWord (s : String) : String :=
  "_".intercalate ((Text.words s.toList).map String.ofList)

/-- A character that needs no quotes in the name of a table. -/
def isEntityChar (c : Char) : Bool := Text.isAlphanumeric c || c = '_' || c = '-'

/-- The name of a table, between quotes if any of its characters needs them. -/
def entity (name : String) : String :=
  if name.toList.all isEntityChar then name else "\"" ++ name ++ "\""

/-- The lines of a table. -/
def tableLines (t : Schema.Table) : List String :=
  ["  " ++ entity t.name ++ " \x7b"]
    ++ t.fields.map (fun f => "    " ++ oneWord f.typeLabel ++ " " ++ oneWord f.name)
    ++ ["  \x7d"]

/-- The mark at the source of a reference. -/
def sourceMark (symbol : String) : String := if symbol = "*" then "\x7do" else "||"

/-- The mark at the target of a reference. -/
def targetMark (symbol : String) : String := if symbol = "*" then "o\x7b" else "||"

/-- The line of a reference. -/
def referenceLine (r : Schema.Reference) : String :=
  "  " ++ entity r.source.tableName ++ " " ++ sourceMark r.source.symbol ++ "--"
    ++ targetMark r.target.symbol ++ " " ++ entity r.target.tableName ++ " : \"\""

/-- All lines of a diagram. -/
def diagramLines (s : Schema) : List String :=
  ["erDiagram"] ++ s.tables.flatMap tableLines ++ s.references.map referenceLine

/-- The text of a diagram; every line ends with a line feed. -/
def render (s : Schema) : String := String.join ((diagramLines s).map (· ++ "\n"))

end SchemaDiagram.Mermaid
