/-!
# SchemaDiagram.Document

What a schema document declares: tables with their fields, references between tables, and
enumerations.

1. `Declarations` are the declared things in the order of the text, and can be appended.
2. A `Document` has them grouped by the schema they belong to, the default schema first.
-/

namespace SchemaDiagram.Document

/-! ## Fields and tables -/

/-- The type of a field as it is declared. -/
inductive FieldType where
  /-- A type such as `varchar(255)[]`, with the arguments between its parentheses. -/
  | expression (name : String) (args : Option String)
  /-- A type between double quotes, such as `"timestamp with time zone"`. -/
  | quoted (name : String)
  | absent
  deriving DecidableEq, Repr

/-- A field of a table. -/
structure Field where
  name : String
  type : FieldType
  isPrimaryKey : Bool := false
  isUnique : Bool := false
  isNotNull : Bool := false
  isIncrement : Bool := false
  defaultValue : Option String := none
  note : Option String := none
  deriving DecidableEq, Repr

/-- A table; its schema is the default one unless it is named. -/
structure Table where
  name : String
  schemaName : Option String := none
  aliasName : Option String := none
  headerColor : Option String := none
  note : Option String := none
  fields : List Field := []
  deriving DecidableEq, Repr

/-! ## References -/

/-- The four kinds of reference between two tables. -/
inductive Relation where
  | manyToOne
  | oneToMany
  | oneToOne
  | manyToMany
  deriving DecidableEq, Repr

/-- A star at an end where many rows may take part, a one at the other. -/
def Relation.symbols : Relation → String × String
  | manyToOne => ("*", "1")
  | oneToMany => ("1", "*")
  | oneToOne => ("1", "1")
  | manyToMany => ("*", "*")

/-- The place a reference leads to: a table, and fields of it if any are named. -/
structure Path where
  schemaName : Option String
  tableName : String
  fieldNames : List String
  deriving DecidableEq, Repr

/-- The place that names joined by points lead to, with the fields that a list behind them names.
Without such a list the last name is a field, unless it is the only one.  The name before the table
is its schema. -/
def Path.ofNames (first : String) (more : List String) (fieldNames : Option (List String)) : Path :=
  match fieldNames, (first :: more).reverse with
  | some names, table :: before => ⟨before.head?, table, names⟩
  | none, field :: table :: before => ⟨before.head?, table, [field]⟩
  | _, _ => ⟨none, first, []⟩

/-- One end of a reference, with the symbol written at it. -/
structure Endpoint extends Path where
  symbol : String
  deriving DecidableEq, Repr

/-- A reference between two places. -/
structure Reference where
  name : Option String
  source : Endpoint
  target : Endpoint
  deriving DecidableEq, Repr

/-- The reference of a relation between two places. -/
def Reference.of (name : Option String) (source : Path) (r : Relation) (target : Path) :
    Reference :=
  ⟨name, ⟨source, r.symbols.1⟩, ⟨target, r.symbols.2⟩⟩

/-! ## Enumerations -/

/-- A list of named values. -/
structure Enumeration where
  schemaName : Option String := none
  name : String
  values : List String
  deriving DecidableEq, Repr

/-! ## Declarations -/

/-- Declarations of each kind, in the order in which they are complete: a reference inside a table
comes before the table itself. -/
structure Declarations where
  tables : List Table := []
  references : List Reference := []
  enumerations : List Enumeration := []
  deriving DecidableEq, Repr

namespace Declarations

/-- The declarations of one stretch of a document followed by those of the next. -/
protected def append (a b : Declarations) : Declarations :=
  ⟨a.tables ++ b.tables, a.references ++ b.references, a.enumerations ++ b.enumerations⟩

instance : Append Declarations := ⟨Declarations.append⟩

@[simp] theorem tables_append (a b : Declarations) : (a ++ b).tables = a.tables ++ b.tables := rfl

@[simp] theorem references_append (a b : Declarations) :
    (a ++ b).references = a.references ++ b.references := rfl

@[simp] theorem enumerations_append (a b : Declarations) :
    (a ++ b).enumerations = a.enumerations ++ b.enumerations := rfl

/-- The declarations of consecutive stretches, taken together. -/
def concat : List Declarations → Declarations
  | [] => {}
  | d :: ds => d ++ concat ds

end Declarations

/-! ## Grouping by schema -/

/-- The schema of declarations that name none. -/
def defaultSchema : String := "public"

/-- The schema that a declaration belongs to. -/
def schemaOf (name : Option String) : String := name.getD defaultSchema

/-- The declarations of one schema. -/
structure SchemaGroup extends Declarations where
  name : String
  deriving DecidableEq, Repr

namespace Declarations

/-- The schemas of the declarations in the order of their first use: the default one, then those of
the tables, the references and the enumerations.  A reference belongs to the schema of its
source. -/
def schemaNames (d : Declarations) : List String :=
  (defaultSchema :: (d.tables.map (schemaOf ·.schemaName)
    ++ d.references.map (schemaOf ·.source.schemaName)
    ++ d.enumerations.map (schemaOf ·.schemaName))).eraseDups

/-- The declarations that belong to a schema, in unchanged order. -/
def inSchema (d : Declarations) (name : String) : Declarations where
  tables := d.tables.filter (schemaOf ·.schemaName == name)
  references := d.references.filter (schemaOf ·.source.schemaName == name)
  enumerations := d.enumerations.filter (schemaOf ·.schemaName == name)

/-- The declarations by schema. -/
def groups (d : Declarations) : List SchemaGroup :=
  d.schemaNames.map fun name => { d.inSchema name with name }

end Declarations

end SchemaDiagram.Document

namespace SchemaDiagram

/-- The declarations of a source text, by schema. -/
structure Document where
  schemas : List Document.SchemaGroup := []
  deriving DecidableEq, Repr

/-- The document of declarations. -/
def Document.ofDeclarations (d : Document.Declarations) : Document := ⟨d.groups⟩

end SchemaDiagram
