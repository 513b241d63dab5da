import SchemaDiagram.Document
import SchemaDiagram.Text.Blank

/-!
# SchemaDiagram.Schema

The part of a document that a diagram shows: the tables and references of its first schema.

1. Every field has a label for its type, never an empty one.
2. An end of a reference may name a table by its alias; the schema names it by the table's own
   name.  Names of tables go before aliases.
-/

namespace SchemaDiagram

namespace Schema

/-- A field and the label of its type. -/
structure Field where
  name : String
  typeLabel : String
  note : Option String := none
  deriving DecidableEq, Repr

/-- A table. -/
structure Table where
  name : String
  headerColor : Option String := none
  fields : List Field := []
  deriving DecidableEq, Repr

/-- One end of a reference, with the symbol shown at it. -/
structure Endpoint where
  tableName : String
  fieldNames : List String
  symbol : String
  deriving DecidableEq, Repr

/-- A reference between two tables. -/
structure Reference where
  source : Endpoint
  target : Endpoint
  deriving DecidableEq, Repr

end Schema

/-- Tables and the references between them. -/
structure Schema where
  tables : List Schema.Table := []
  references : List Schema.Reference := []
  deriving DecidableEq, Repr

/-! ## Labels of types -/

/-- The label of a field without a type. -/
def Schema.noTypeLabel : String := "unknown"

/-- The label of a type: its name, unless that is blank. -/
def Document.FieldType.label : Document.FieldType → String
  | expression name _ | quoted name =>
    if Text.isAllBlank name.toList then Schema.noTypeLabel else name
  | absent => Schema.noTypeLabel

namespace Schema

/-! ## From declarations -/

/-- A field as it is shown. -/
def Field.of (f : Document.Field) : Field := ⟨f.name, f.type.label, f.note⟩

/-- A table as it is shown. -/
def Table.of (t : Document.Table) : Table := ⟨t.name, t.headerColor, t.fields.map .of⟩

/-- The own name of the table that a name means: the table of that name, otherwise the first one
with that alias.  A name that means no table stays. -/
def ownName (tables : List Document.Table) (name : String) : String :=
  if tables.any (·.name == name) then name
  else match tables.find? (·.aliasName == some name) with
    | some t => t.name
    | none => name

/-- One end of a reference among the given tables. -/
def Endpoint.of (tables : List Document.Table) (e : Document.Endpoint) : Endpoint :=
  ⟨ownName tables e.tableName, e.fieldNames, e.symbol⟩

/-- A reference among the given tables. -/
def Reference.of (tables : List Document.Table) (r : Document.Reference) : Reference :=
  ⟨.of tables r.source, .of tables r.target⟩

/-- The tables and references of one schema of a document. -/
def ofGroup (g : Document.SchemaGroup) : Schema :=
  ⟨g.tables.map .of, g.references.map (.of g.tables)⟩

/-- Why there is nothing to show. -/
inductive Missing where
  | document
  | schemas
  deriving DecidableEq, Repr

/-- What a message says of it. -/
def Missing.message : Missing → String
  | document => "parser produced no document"
  | schemas => "document contains no schemas"

/-- The first schema of a document, if there is one. -/
def ofDocument? : Option Document → Except Missing Schema
  | none => .error .document
  | some d =>
    match d.schemas with
    | [] => .error .schemas
    | first :: _ => .ok (ofGroup first)

/-- The first schema of a document, or an empty one. -/
def ofDocument (d : Option Document) : Schema :=
  match ofDocument? d with
  | .ok s => s
  | .error _ => {}

/-! ## Queries -/

/-- The first table of a name. -/
def table? (s : Schema) (name : String) : Option Table := s.tables.find? (·.name == name)

/-- The names of all tables, in order. -/
def tableNames (s : Schema) : List String := s.tables.map (·.name)

/-- The number of fields of all tables. -/
def fieldCount (s : Schema) : Nat := s.tables.foldl (fun n t => n + t.fields.length) 0

end Schema

end SchemaDiagram
