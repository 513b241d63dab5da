import SchemaDiagram.Grammar.Enumeration
import SchemaDiagram.Grammar.Reference
import SchemaDiagram.Grammar.Table

/-!
# SchemaDiagram.Grammar

The declarations of a document.

```
document    = { declaration }
declaration = "table" table
            | "ref" references
            | "enum" enumeration
            | ( "project" | "tablegroup" | "note" ) skipped
```

Keywords are written in any case and are reserved only where the grammar looks for them.
-/

namespace SchemaDiagram.Grammar

open SchemaDiagram.Parser
open SchemaDiagram.Document (Declarations)

/-- Whether a declaration that means nothing for the diagram begins with a token. -/
def isSkipped (t : Token) : Bool :=
  t.isKeyword .project || t.isKeyword .tableGroup || t.isKeyword .note

/-- What the keyword at the beginning of a declaration announces. -/
def declaration : Parser Declarations := do
  if ← accept (·.isKeyword .table) then table
  else if ← accept (·.isKeyword .ref) then
    let references ← references
    return { references }
  else if ← accept (·.isKeyword .enum) then
    let e ← enumeration
    return { enumerations := [e] }
  else if ← accept isSkipped then
    skipped
    return {}
  else
    fail .declaration

/-- Every declaration takes a token at least: the one that announces it. -/
theorem advances_declaration : Advances declaration := by
  refine advances_accept_then shrinks_table ?_
  refine advances_accept_then (shrinks_references.bind fun _ => shrinks_pure _) ?_
  refine advances_accept_then (shrinks_enumeration.bind fun _ => shrinks_pure _) ?_
  exact advances_accept_then (shrinks_skipped.bind fun _ => shrinks_pure _) (advances_fail _)

/-- All declarations, up to the end of the tokens. -/
def declarations : Parser Declarations := do
  let ds ← repeatUntil List.isEmpty declaration advances_declaration
  return .concat ds

end SchemaDiagram.Grammar
