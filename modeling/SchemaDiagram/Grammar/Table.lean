import SchemaDiagram.Grammar.Block
import SchemaDiagram.Grammar.FieldType
import SchemaDiagram.Grammar.QualifiedName

/-!
# SchemaDiagram.Grammar.Table

Tables and their fields.

```
table = qualified [ "as" name ] [ settings ] "{" { item } "}"
item  = "note" ( ":" text | "{" text "}" ) | "indexes" block | field
field = name [ type ] [ settings ]
```

1. `note` and `indexes` begin an item of their own only with the token that must follow them;
   otherwise they are names of fields.
2. A note in the body of a table replaces the one among its settings.
3. A setting `ref` of a field declares a reference from the field.
-/

namespace SchemaDiagram.Grammar

open SchemaDiagram.Parser
open SchemaDiagram.Document (Declarations Field Path Reference Table)

/-! ## Fields -/

/-- A field of the given table, and the references among its settings. -/
def field (schemaName : Option String) (tableName : String) :
    Parser (Field × List Reference) := do
  let line ← line?
  let fieldName ← name .fieldName
  let type ← fieldType line
  let settings ← settings
  let source : Path := ⟨schemaName, tableName, [fieldName]⟩
  return (settings.foldl (fun f s => s.applyTo f) { name := fieldName, type },
    settings.filterMap (·.reference? source))

theorem advances_field (schemaName : Option String) (tableName : String) :
    Advances (field schemaName tableName) :=
  shrinks_line?.bind_advances fun _ => (advances_name _).bind fun _ =>
    (shrinks_fieldType _).bind fun _ => shrinks_settings.bind fun _ => shrinks_pure _

/-! ## Items -/

/-- A part of the body of a table. -/
inductive TableItem where
  | note (text : String)
  | indexes
  | field (decl : Field) (references : List Reference)
  deriving DecidableEq, Repr

namespace TableItem

/-- The note that an item is. -/
def note? : TableItem → Option String
  | note text => some text
  | _ => none

/-- The field that an item is. -/
def field? : TableItem → Option Field
  | field decl _ => some decl
  | _ => none

/-- The references among the settings of an item. -/
def references : TableItem → List Reference
  | field _ references => references
  | _ => []

end TableItem

/-- A text between single or double quotes. -/
def noteText : Parser String := take Token.text? .noteText

/-- The next item of a body. -/
def tableItem (schemaName : Option String) (tableName : String) : Parser TableItem := do
  if ← acceptBoth (·.isKeyword .note) (is .colon) then
    let text ← noteText
    return .note text
  else if ← acceptBoth (·.isKeyword .note) (is .openBrace) then
    let text ← noteText
    symbol .closeBrace .closeNote
    return .note text
  else if ← acceptBoth (·.isKeyword .indexes) (is .openBrace) then
    blockBody 0
    return .indexes
  else
    let (decl, references) ← field schemaName tableName
    return .field decl references

/-- An item of a table takes a token at least, whatever it is. -/
theorem advances_tableItem (schemaName : Option String) (tableName : String) :
    Advances (tableItem schemaName tableName) := by
  have note : Shrinks noteText := (advances_take _ _).shrinks
  refine advances_acceptBoth_then (note.bind fun _ => shrinks_pure _) ?_
  refine advances_acceptBoth_then
    (note.bind fun _ => (advances_symbol _ _).shrinks.bind fun _ => shrinks_pure _) ?_
  refine advances_acceptBoth_then ((shrinks_blockBody 0).bind fun _ => shrinks_pure _) ?_
  exact (advances_field schemaName tableName).bind fun _ => shrinks_pure _

/-! ## Tables -/

/-- An alias behind its keyword; none without the keyword. -/
def tableAlias : Parser (Option String) := do
  if ← accept (·.isKeyword .as) then
    let aliasName ← name .tableAlias
    return some aliasName
  else
    return none

/-- The items of a table up to the closing brace, the opening one taken. -/
def tableBody (schemaName : Option String) (tableName : String) : Parser (List TableItem) :=
  manyUntil .closeBrace ((tableItem schemaName tableName).beforeEnd .closeTable)
    ((advances_tableItem schemaName tableName).beforeEnd _)

/-- A table and the references in it, its keyword taken. -/
def table : Parser Declarations := do
  let (schemaName, tableName) ← qualifiedName .tableName
  let aliasName ← tableAlias
  let settings ← settings
  symbol .openBrace .openTable
  let items ← tableBody schemaName tableName
  let decl : Table := {
    name := tableName
    schemaName
    aliasName
    headerColor := Setting.lastText "headercolor" settings
    note := (items.filterMap (·.note?)).getLast?.or (Setting.lastText "note" settings)
    fields := items.filterMap (·.field?)
  }
  return { tables := [decl], references := items.flatMap (·.references) }

theorem shrinks_tableAlias : Shrinks tableAlias := by
  refine (shrinks_accept _).bind fun b => ?_
  split
  · exact (advances_name _).shrinks.bind fun _ => shrinks_pure _
  · exact shrinks_pure _

theorem shrinks_table : Shrinks table :=
  (advances_qualifiedName _).shrinks.bind fun _ => shrinks_tableAlias.bind fun _ =>
    shrinks_settings.bind fun _ => (advances_symbol _ _).shrinks.bind fun _ =>
      (shrinks_manyUntil ..).bind fun _ => shrinks_pure _

end SchemaDiagram.Grammar
