import SchemaDiagram.Proofs.Document.PathNames

/-!
# SchemaDiagram.Proofs.Document.Formed

What the references and the types of a document look like, whatever its text is.

1. The two symbols of a reference are those of a relation, and an end without fields has no schema
   (`Reference.IsFormed`).
2. A type with arguments has them at its end: `varchar(255)` and `varchar(255)[]` have the arguments
   `255` (`FieldType.IsFormed`).

References are made at two places of the grammar, by a line and by a setting of a field; both read
the place that is referred to as a path (`Grammar.isFormed_of_beginsReference`).
-/

namespace SchemaDiagram

namespace Document

/-- A place without fields has no schema. -/
def Path.IsFormed (p : Path) : Prop := p.fieldNames = [] → p.schemaName = none

/-- The ends of a reference have the symbols of a relation, and neither has a schema but no
fields. -/
structure Reference.IsFormed (r : Reference) : Prop where
  exists_symbols : ∃ relation : Relation, (r.source.symbol, r.target.symbol) = relation.symbols
  source : r.source.toPath.IsFormed
  target : r.target.toPath.IsFormed

/-- The arguments of a type stand in parentheses at its end, or in front of the brackets of an
array. -/
def FieldType.IsFormed : FieldType → Prop
  | expression name (some args) =>
    ∃ before, name = before ++ "(" ++ args ++ ")" ∨ name = before ++ "(" ++ args ++ ")[]"
  | _ => True

/-- The references among declarations and the types of their fields. -/
structure Declarations.IsFormed (d : Declarations) : Prop where
  references : ∀ r ∈ d.references, r.IsFormed
  types : ∀ t ∈ d.tables, ∀ f ∈ t.fields, f.type.IsFormed

/-- Names joined by points stand for a place without fields only if there is but one. -/
theorem Path.isFormed_ofNames {first : String} {more : List String}
    {fieldNames : Option (List String)} (h : fieldNames ≠ some []) :
    (ofNames first more fieldNames).IsFormed := by
  intro hnil
  unfold ofNames at hnil ⊢
  split at hnil
  · exact absurd (congrArg some hnil) h
  · contradiction
  · rfl

/-- A reference between two places that are formed is formed. -/
theorem Reference.isFormed_of {n : Option String} {p q : Path} (r : Relation) (hp : p.IsFormed)
    (hq : q.IsFormed) : (Reference.of n p r q).IsFormed :=
  ⟨⟨r, rfl⟩, hp, hq⟩

end Document

namespace Grammar

open SchemaDiagram.Parser
open SchemaDiagram.Document (Path Reference FieldType Declarations)

variable {ts rest : List Located}

/-! ## References -/

/-- A list of fields is not empty. -/
theorem fieldList_ne_nil {fieldNames : Option (List String)}
    (h : fieldList ts = .ok (fieldNames, rest)) : fieldNames ≠ some [] := by
  by_cases hb : BeginsBoth (is .dot) (is .openParen) ts
  · obtain ⟨t, u, mid, rfl, ht, hu⟩ := hb
    rw [fieldList, acceptBoth_then_of_true ht hu] at h
    obtain ⟨first, _, _, h⟩ := bind_eq_ok.1 h
    obtain ⟨more, _, _, h⟩ := bind_eq_ok.1 h
    obtain ⟨_, _, _, h⟩ := bind_eq_ok.1 h
    cases h
    simp
  · rw [fieldList, acceptBoth_then_of_not hb] at h
    cases h
    simp

/-- A path that is read is formed: it has a schema only in front of a table and a field. -/
theorem isFormed_of_path {p : Path} (h : path ts = .ok (p, rest)) : p.IsFormed := by
  obtain ⟨first, _, _, h⟩ := bind_eq_ok.1 h
  obtain ⟨more, _, _, h⟩ := bind_eq_ok.1 h
  obtain ⟨fieldNames, _, hfields, h⟩ := bind_eq_ok.1 h
  cases h
  exact Path.isFormed_ofNames (fieldList_ne_nil hfields)

/-- A reference on a line has two paths, one in a setting has a field and a path. -/
theorem isFormed_of_beginsReference {r : Reference} (h : BeginsReference ts r) : r.IsFormed := by
  cases h with
  | line hp _ hq =>
    exact Reference.isFormed_of _ (isFormed_of_path hp.path) (isFormed_of_path hq.path)
  | setting _ _ hq => exact Reference.isFormed_of _ (fun h => nomatch h) (isFormed_of_path hq.path)

/-! ## Types -/

/-- The text of a type is put together with its arguments at the end, and with the brackets of an
array behind them. -/
theorem isFormed_of_typeExpression {first : String} {type : FieldType}
    (h : typeExpression first ts = .ok (type, rest)) : type.IsFormed := by
  obtain ⟨qualifier, _, _, h⟩ := bind_eq_ok.1 h
  obtain ⟨args, _, _, h⟩ := bind_eq_ok.1 h
  obtain ⟨isArray, _, _, h⟩ := bind_eq_ok.1 h
  cases h
  cases args with
  | none => trivial
  | some args =>
    refine ⟨first ++ qualifier, ?_⟩
    cases isArray
    · exact .inl (by simp [String.append_assoc])
    · exact .inr (by simp [String.append_assoc])

/-- Whatever stands for a type is formed: a quoted text and a missing type have no arguments. -/
theorem isFormed_of_fieldType {line : Option Nat} {type : FieldType}
    (h : fieldType line ts = .ok (type, rest)) : type.IsFormed := by
  rw [fieldType, line?_then] at h
  split at h
  · obtain ⟨quoted, _, _, h⟩ := bind_eq_ok.1 h
    cases quoted with
    | some => cases h; trivial
    | none =>
      obtain ⟨word, _, _, h⟩ := bind_eq_ok.1 h
      cases word with
      | some => exact isFormed_of_typeExpression h
      | none => cases h; trivial
  · cases h
    trivial

/-- A setting does not change the type of a field. -/
@[simp] theorem type_applyTo (s : Setting) (f : Document.Field) : (s.applyTo f).type = f.type := by
  unfold Setting.applyTo
  split <;> rfl

/-- The type of a field that is read is formed, whatever its settings are. -/
theorem isFormed_of_field {schemaName : Option String} {tableName : String} {f : Document.Field}
    {references : List Reference}
    (h : field schemaName tableName ts = .ok ((f, references), rest)) : f.type.IsFormed := by
  rw [field, line?_then] at h
  obtain ⟨fieldName, _, _, h⟩ := bind_eq_ok.1 h
  obtain ⟨type, _, htype, h⟩ := bind_eq_ok.1 h
  obtain ⟨ss, _, _, h⟩ := bind_eq_ok.1 h
  cases h
  rw [foldl_applyTo type_applyTo]
  exact isFormed_of_fieldType htype

/-! ## Documents -/

/-- All that is declared among tokens is formed. -/
theorem isFormed_declarations {d : Declarations} (h : declarations ts = .ok (d, rest)) :
    d.IsFormed where
  references r hr := by
    obtain ⟨before, after, -, hbegins⟩ := exhibits_declarations h hr
    exact isFormed_of_beginsReference hbegins
  types t ht f hf := by
    obtain ⟨p, ⟨_, _, _, hread⟩, rfl⟩ := exists_place h ht
    obtain ⟨u, more, references, hmem⟩ := hread.exists_hasField hf
    obtain ⟨after, hitem⟩ := hread.items.exists_of_mem hmem
    exact isFormed_of_field (tableItem_eq_ok_field.1 hitem).2

end Grammar

end SchemaDiagram
