import SchemaDiagram.Parser.Progress

/-!
# SchemaDiagram.Grammar.QualifiedName

The names of tables and enumerations.

```
qualified = name [ "." name ]
```
-/

namespace SchemaDiagram.Grammar

open SchemaDiagram.Parser

/-- A name, with the name of its schema before a point. -/
def qualifiedName (e : Expected) : Parser (Option String × String) := do
  let first ← name e
  if ← accept (is .dot) then
    let second ← name e
    return (some first, second)
  else
    return (none, first)

theorem advances_qualifiedName (e : Expected) : Advances (qualifiedName e) := by
  refine (advances_name e).bind fun _ => (shrinks_accept _).bind fun b => ?_
  split
  · exact (advances_name e).shrinks.bind fun _ => shrinks_pure _
  · exact shrinks_pure _

end SchemaDiagram.Grammar
