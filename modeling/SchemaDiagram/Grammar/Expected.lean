import SchemaDiagram.Token

/-!
# SchemaDiagram.Grammar.Expected

What a document can lack where reading it stops.
-/

namespace SchemaDiagram

/-- What a document can lack where reading it stops. -/
inductive Expected where
  | declaration
  | tableName
  | tableAlias
  | openTable
  | closeTable
  | noteText
  | closeNote
  | fieldName
  | typeName
  | closeArguments
  | settingName
  | settingValue
  | numberAfterDash
  | closeSettings
  | relation
  | pathName
  | closeFields
  | referenceBody
  | closeReferences
  | enumName
  | openEnum
  | enumValue
  | openBlock
  | closeBlock
  deriving DecidableEq, Repr

/-- How messages name what is missing. -/
def Expected.description : Expected → String
  | declaration => "Table, Ref, Enum, Project, TableGroup or Note"
  | tableName => "table name"
  | tableAlias => "table alias"
  | openTable => "'\x7b' to open the table body"
  | closeTable => "'\x7d' to close the table body"
  | noteText => "note text"
  | closeNote => "'\x7d' to close the note"
  | fieldName => "field name"
  | typeName => "type name"
  | closeArguments => "')' to close type arguments"
  | settingName => "setting name"
  | settingValue => "setting value"
  | numberAfterDash => "number after '-'"
  | closeSettings => "',' or ']'"
  | relation => "relation ('>', '<', '-' or '<>')"
  | pathName => "name"
  | closeFields => "')' to close the field list"
  | referenceBody => "':' or '\x7b' after Ref"
  | closeReferences => "'\x7d' to close the ref block"
  | enumName => "enum name"
  | openEnum => "'\x7b' to open the enum body"
  | enumValue => "enum value"
  | openBlock => "'\x7b'"
  | closeBlock => "'\x7d'"

/-- Where a list of tokens does not go on as it should: what was expected, and the tokens from there
on. -/
structure Mismatch where
  expected : Expected
  rest : List Located
  deriving DecidableEq, Repr

end SchemaDiagram
