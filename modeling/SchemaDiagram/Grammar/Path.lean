import SchemaDiagram.Document
import SchemaDiagram.Parser.Progress

/-!
# SchemaDiagram.Grammar.Path

Places in a schema and the relations between them, as references write them.

```
path     = name { "." name } [ "." "(" name { "," name } ")" ]
relation = ">" | "<" | "-" | "<>"
```
-/

namespace SchemaDiagram.Grammar

open SchemaDiagram.Parser
open SchemaDiagram.Document (Path Relation)

/-! ## Paths -/

/-- A list of fields in parentheses, behind a point; none if there is no such list. -/
def fieldList : Parser (Option (List String)) := do
  if ← acceptBoth (is .dot) (is .openParen) then
    let first ← name .fieldName
    let more ← namesAfter .comma (fun _ => false) .fieldName
    symbol .closeParen .closeFields
    return some (first :: more)
  else
    return none

/-- The place of a table or of fields of it. -/
def path : Parser Path := do
  let first ← name .tableName
  let more ← namesAfter .dot (is .openParen) .pathName
  let fieldNames ← fieldList
  return .ofNames first more fieldNames

theorem shrinks_fieldList : Shrinks fieldList := by
  refine (shrinks_acceptBoth _ _).bind fun b => ?_
  split
  · exact (advances_name _).shrinks.bind fun _ => (shrinks_namesAfter _ _ _).bind fun _ =>
      (advances_symbol _ _).shrinks.bind fun _ => shrinks_pure _
  · exact shrinks_pure _

theorem advances_path : Advances path :=
  (advances_name _).bind fun _ => (shrinks_namesAfter _ _ _).bind fun _ =>
    shrinks_fieldList.bind fun _ => shrinks_pure _

/-! ## Relations -/

/-- The relation that a token is the sign of. -/
def relation? : Token → Option Relation
  | .symbol .greater => some .manyToOne
  | .symbol .less => some .oneToMany
  | .symbol .dash => some .oneToOne
  | .symbol .lessGreater => some .manyToMany
  | _ => none

/-- The sign of a relation. -/
def relation : Parser Relation := take relation? .relation

theorem advances_relation : Advances relation := advances_take ..

end SchemaDiagram.Grammar
