import SchemaDiagram.Grammar.Setting

/-!
# SchemaDiagram.Grammar.Reference

References that are declared on their own.

```
references = [ name ] ( ":" reference | "{" { reference } "}" )
reference  = path relation path [ settings ]
```

All references of one declaration have its name.  Their settings mean nothing for the diagram.
-/

namespace SchemaDiagram.Grammar

open SchemaDiagram.Parser
open SchemaDiagram.Document (Reference)

/-- A reference of the given name. -/
def reference (referenceName : Option String) : Parser Reference := do
  let source ← path
  let r ← relation
  let target ← path
  let _ ← settings
  return .of referenceName source r target

theorem advances_reference (referenceName : Option String) : Advances (reference referenceName) :=
  advances_path.bind fun _ => advances_relation.shrinks.bind fun _ =>
    advances_path.shrinks.bind fun _ => shrinks_settings.bind fun _ => shrinks_pure _

/-- The references of a declaration, its keyword taken. -/
def references : Parser (List Reference) := do
  let referenceName ← take? Token.name?
  if ← accept (is .colon) then
    let r ← reference referenceName
    return [r]
  else
    symbol .openBrace .referenceBody
    manyUntil .closeBrace ((reference referenceName).beforeEnd .closeReferences)
      ((advances_reference referenceName).beforeEnd _)

theorem shrinks_references : Shrinks references := by
  refine (shrinks_take? _).bind fun referenceName => (shrinks_accept _).bind fun b => ?_
  split
  · exact (advances_reference _).shrinks.bind fun _ => shrinks_pure _
  · exact (advances_symbol _ _).shrinks.bind fun _ => shrinks_manyUntil ..

end SchemaDiagram.Grammar
