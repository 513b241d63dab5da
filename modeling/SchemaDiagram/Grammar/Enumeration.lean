import SchemaDiagram.Grammar.QualifiedName
import SchemaDiagram.Grammar.Setting

/-!
# SchemaDiagram.Grammar.Enumeration

Enumerations.

```
enumeration = qualified "{" { name [ settings ] } "}"
```
-/

namespace SchemaDiagram.Grammar

open SchemaDiagram.Parser
open SchemaDiagram.Document (Enumeration)

/-- A value of an enumeration; its settings mean nothing for the diagram. -/
def enumValue : Parser String := do
  let value ← name .enumValue
  let _ ← settings
  return value

theorem advances_enumValue : Advances enumValue :=
  (advances_name _).bind fun _ => shrinks_settings.bind fun _ => shrinks_pure _

/-- An enumeration, its keyword taken. -/
def enumeration : Parser Enumeration := do
  let (schemaName, enumName) ← qualifiedName .enumName
  symbol .openBrace .openEnum
  let values ← manyUntil .closeBrace enumValue advances_enumValue
  return ⟨schemaName, enumName, values⟩

theorem shrinks_enumeration : Shrinks enumeration :=
  (advances_qualifiedName _).shrinks.bind fun _ => (advances_symbol _ _).shrinks.bind fun _ =>
    (shrinks_manyUntil ..).bind fun _ => shrinks_pure _

end SchemaDiagram.Grammar
