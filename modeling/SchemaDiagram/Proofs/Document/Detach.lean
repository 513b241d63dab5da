import SchemaDiagram.Grammar
import SchemaDiagram.Proofs.Document.Outline

/-!
# SchemaDiagram.Proofs.Document.Detach

References written on their own.

A reference stands on its own, in a list between braces or among the settings of a field.  The
parsers of this module take what those of the grammar take, and give the tokens of a document that
declares each reference on its own:

```
Table s.t { a int [pk, ref: > u.b] }    Table s.t { a int [pk, ref] } Ref: "s"."t"."a" > u.b
Ref n { a.b > c.d  e.f < g.h }          Ref n: a.b > c.d Ref n: e.f < g.h
```

1. A setting `ref` of a field keeps its key, and its value goes behind the table.
2. The references of a list get the name of the list one by one, and nothing else of it stays.
3. All other tokens stay, with their positions.
-/

namespace SchemaDiagram.Parser

/-! ## Taken tokens -/

/-- The value of a parser, and the tokens that it takes. -/
def taken (p : Parser α) : Parser (α × List Located) := fun ts =>
  match p ts with
  | .error m => .error m
  | .ok (a, rest) => .ok ((a, ts.take (ts.length - rest.length)), rest)

/-- What a parser takes is what stands before the tokens it leaves. -/
theorem taken_of_append {p : Parser α} {a : α} (tokens : List Located) {rest : List Located}
    (h : p (tokens ++ rest) = .ok (a, rest)) :
    taken p (tokens ++ rest) = .ok ((a, tokens), rest) := by
  simp [taken, h]

/-- To keep the tokens that are taken changes nothing about a parser. -/
theorem exists_of_taken_eq_ok {p : Parser α} {a : α × List Located} {ts rest : List Located}
    (h : taken p ts = .ok (a, rest)) : p ts = .ok (a.1, rest) := by
  unfold taken at h
  split at h
  · contradiction
  · rename_i hp
    cases h
    exact hp

theorem Advances.taken {p : Parser α} (h : Advances p) : Advances (taken p) :=
  fun _ _ _ hok => h (exists_of_taken_eq_ok hok)

theorem Shrinks.taken {p : Parser α} (h : Shrinks p) : Shrinks (taken p) :=
  fun _ _ _ hok => h (exists_of_taken_eq_ok hok)

end SchemaDiagram.Parser

namespace SchemaDiagram.Grammar

open SchemaDiagram.Parser
open SchemaDiagram.Document (FieldType)

/-! ## What stays and what goes behind -/

/-- What becomes of a part of a declaration. -/
structure Detached where
  /-- What stays in the place of the part. -/
  kept : List Located
  /-- The tokens of references that go behind the declaration. -/
  references : List Token

namespace Detached

/-- Tokens that stay as they are. -/
def keep (tokens : List Located) : Detached := ⟨tokens, []⟩

/-- Consecutive parts. -/
def concat (ds : List Detached) : Detached := ⟨ds.flatMap (·.kept), ds.flatMap (·.references)⟩

end Detached

/-- Taken tokens that stay, and what becomes of the part behind them. -/
def keepBefore (tokens : List Located) (part : Parser Detached) : Parser Detached := do
  let d ← part
  return { d with kept := tokens ++ d.kept }

/-- A part that stays as it is. -/
def unchanged (p : Parser α) : Parser Detached := do
  let (_, tokens) ← taken p
  return .keep tokens

/-- To keep tokens in front of a part changes nothing about what the part leaves. -/
theorem shrinks_keepBefore {part : Parser Detached} (tokens : List Located) (h : Shrinks part) :
    Shrinks (keepBefore tokens part) :=
  h.bind fun _ => shrinks_pure _

theorem advances_unchanged {p : Parser α} (h : Advances p) : Advances (unchanged p) :=
  h.taken.bind fun _ => shrinks_pure _

/-! ## References -/

/-- A reference on its own: the tokens of its name, if it has one, and those behind the colon. -/
def referenceTokens (name body : List Token) : List Token :=
  .identifier "Ref" :: (name ++ .symbol .colon :: body)

/-- The field of a table as the source of a reference. -/
def sourceTokens (schemaName : Option String) (tableName fieldName : String) : List Token :=
  Outline.qualifiedTokens schemaName tableName ++ [.symbol .dot, .quoted fieldName]

/-- The references of a declaration, its keyword taken. -/
def detachReferences (keyword : List Located) : Parser Detached := do
  let (referenceName, nameTokens) ← taken (take? Token.name?)
  let (isSingle, colon) ← taken (accept (is .colon))
  if isSingle then
    let (_, body) ← taken (reference referenceName)
    return .keep (keyword ++ nameTokens ++ colon ++ body)
  else
    symbol .openBrace .referenceBody
    let bodies ← manyUntil .closeBrace ((taken (reference referenceName)).beforeEnd .closeReferences)
      ((advances_reference referenceName).taken.beforeEnd _)
    return ⟨[], bodies.flatMap fun body =>
      referenceTokens (nameTokens.map (·.token)) (body.2.map (·.token))⟩

/-! ## Settings -/

/-- What becomes of a setting of the field that the tokens `source` name: the words of its key, its
value with the tokens of it, and what ends it.  Behind a colon, the value of `ref` is a relation and
a path. -/
def Detached.ofSetting (source : List Token) (words : List Located) (value : Option Setting.Value)
    (tokens ending : List Located) : Detached :=
  match value with
  | some (.link ..) =>
    ⟨words ++ ending, referenceTokens [] (source ++ (tokens.drop 1).map (·.token))⟩
  | _ => .keep (words ++ tokens ++ ending)

/-- A setting of the field that the tokens `source` name. -/
def detachSetting (source : List Token) : Parser Detached := do
  let (key, words) ← taken settingKey
  let (value, tokens) ← taken (optionalValue key)
  let (_, ending) ← taken settingEnd
  return .ofSetting source words value tokens ending

/-- A setting takes a token, whatever stays of it. -/
theorem advances_detachSetting (source : List Token) : Advances (detachSetting source) :=
  advances_settingKey.taken.bind fun ⟨key, _⟩ => (shrinks_optionalValue key).taken.bind fun _ =>
    shrinks_settingEnd.taken.bind fun _ => shrinks_pure _

/-- Parts up to a closing symbol, which is taken. -/
def detachUntil (close : Symbol) (item : Parser Detached) (h : Advances item) :
    Parser Detached := do
  let items ← repeatUntil (begins close) item h
  let (_, closing) ← taken (accept (is close))
  let d := Detached.concat items
  return { d with kept := d.kept ++ closing }

/-- Parts up to a closing symbol leave no more tokens than there were. -/
theorem shrinks_detachUntil (close : Symbol) (item : Parser Detached) (h : Advances item) :
    Shrinks (detachUntil close item h) :=
  (shrinks_repeatUntil ..).bind fun _ => (shrinks_accept _).taken.bind fun _ => shrinks_pure _

/-- Settings in brackets; nothing without brackets. -/
def detachSettings (source : List Token) : Parser Detached := do
  let (isOpen, opening) ← taken (accept (is .openBracket))
  if isOpen then
    keepBefore opening
      (detachUntil .closeBracket (detachSetting source) (advances_detachSetting source))
  else
    return .keep []

/-- Settings leave no more tokens than there were, if there are any. -/
theorem shrinks_detachSettings (source : List Token) : Shrinks (detachSettings source) := by
  refine (shrinks_accept _).taken.bind fun ⟨_, _⟩ => ?_
  dsimp only
  split
  · exact shrinks_keepBefore _ (shrinks_detachUntil ..)
  · exact shrinks_pure _

/-! ## Tables -/

/-- The name of a field and its type. -/
def fieldHead : Parser (String × FieldType) := do
  let line ← line?
  let fieldName ← name .fieldName
  let type ← fieldType line
  return (fieldName, type)

/-- A field begins with its name, which it takes. -/
theorem advances_fieldHead : Advances fieldHead :=
  shrinks_line?.bind_advances fun _ => (advances_name _).bind fun _ =>
    (shrinks_fieldType _).bind fun _ => shrinks_pure _

/-- A field of the given table. -/
def detachField (schemaName : Option String) (tableName : String) : Parser Detached := do
  let ((fieldName, _), head) ← taken fieldHead
  keepBefore head (detachSettings (sourceTokens schemaName tableName fieldName))

/-- A field takes a token, whatever stays of it. -/
theorem advances_detachField (schemaName : Option String) (tableName : String) :
    Advances (detachField schemaName tableName) :=
  advances_fieldHead.taken.bind fun _ => shrinks_keepBefore _ (shrinks_detachSettings _)

/-- The next item of the body of the given table: nothing but a field has references in it. -/
def detachItem (schemaName : Option String) (tableName : String) : Parser Detached := fun ts =>
  match taken (tableItem schemaName tableName) ts with
  | .error m => .error m
  | .ok ((.field .., _), _) => detachField schemaName tableName ts
  | .ok ((_, tokens), rest) => .ok (.keep tokens, rest)

/-- An item takes a token, whatever stays of it. -/
theorem advances_detachItem (schemaName : Option String) (tableName : String) :
    Advances (detachItem schemaName tableName) := by
  intro ts d rest h
  unfold detachItem at h
  split at h
  · contradiction
  · exact advances_detachField _ _ h
  · rename_i hitem
    cases h
    exact (advances_tableItem _ _).taken hitem

/-- What stands before the items of a table, its keyword taken. -/
def tableOpening : Parser ((Option String × String) × Option String × List Setting) := do
  let qualified ← qualifiedName .tableName
  let aliasName ← tableAlias
  let settings ← settings
  symbol .openBrace .openTable
  return (qualified, aliasName, settings)

/-- A table, its keyword taken. -/
def detachTable : Parser Detached := do
  let (((schemaName, tableName), _), head) ← taken tableOpening
  keepBefore head (detachUntil .closeBrace (detachItem schemaName tableName)
    (advances_detachItem schemaName tableName))

/-- A table leaves no more tokens than there were. -/
theorem shrinks_detachTable : Shrinks detachTable := by
  have hhead : Shrinks tableOpening :=
    (advances_qualifiedName _).shrinks.bind fun _ => shrinks_tableAlias.bind fun _ =>
      shrinks_settings.bind fun _ => (advances_symbol _ _).shrinks.bind fun _ => shrinks_pure _
  exact hhead.taken.bind fun _ => shrinks_keepBefore _ (shrinks_detachUntil ..)

/-! ## Documents -/

/-- References leave no more tokens than there were, on their line or between braces. -/
theorem shrinks_detachReferences (keyword : List Located) :
    Shrinks (detachReferences keyword) := by
  refine (shrinks_take? _).taken.bind fun ⟨n, _⟩ => (shrinks_accept _).taken.bind fun ⟨_, _⟩ => ?_
  dsimp only
  split
  · exact (advances_reference n).taken.shrinks.bind fun _ => shrinks_pure _
  · exact (advances_symbol _ _).shrinks.bind fun _ => (shrinks_manyUntil ..).bind fun _ =>
      shrinks_pure _

/-- A declaration. -/
def detachDeclaration : Parser Detached := fun ts =>
  match ts with
  | [] => .error ⟨.declaration, []⟩
  | t :: rest =>
    if t.token.isKeyword .table then keepBefore [t] detachTable rest
    else if t.token.isKeyword .ref then detachReferences [t] rest
    else unchanged declaration (t :: rest)

/-- A declaration takes its keyword, so there are fewer tokens behind it. -/
theorem advances_detachDeclaration : Advances detachDeclaration := by
  intro ts d rest h
  unfold detachDeclaration at h
  split at h
  · contradiction
  split at h
  · exact Nat.lt_succ_of_le (shrinks_keepBefore _ shrinks_detachTable h)
  split at h
  · exact Nat.lt_succ_of_le (shrinks_detachReferences _ h)
  · exact advances_unchanged advances_declaration h

/-- The declarations of a document, one by one. -/
def detach : Parser (List Detached) :=
  repeatUntil List.isEmpty detachDeclaration advances_detachDeclaration

/-- The tokens of a document with all references on their own.  Those that stay are where they
were, and those of references stand at any positions. -/
inductive Written : List Detached → List Located → Prop
  | nil : Written [] []
  | cons {d : Detached} {ds : List Detached} {references ts : List Located} :
      references.map (·.token) = d.references → Written ds ts →
        Written (d :: ds) (d.kept ++ references ++ ts)

end SchemaDiagram.Grammar
