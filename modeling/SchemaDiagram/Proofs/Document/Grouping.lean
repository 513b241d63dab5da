import Mathlib.Data.List.Nodup
import SchemaDiagram.Document

/-!
# SchemaDiagram.Proofs.Document.Grouping

Declarations and the document that groups them by schema.

`Document.Holds` says that a document has exactly the given declarations: every declaration is in the
one group of its schema, and a group has nothing else and keeps the order.
-/

namespace SchemaDiagram.Document

/-- The document has exactly the given declarations, in their order inside each schema. -/
structure Holds (doc : SchemaDiagram.Document) (d : Declarations) : Prop where
  nodup_names : (doc.schemas.map (·.name)).Nodup
  tables_eq : ∀ g ∈ doc.schemas, g.tables = d.tables.filter (schemaOf ·.schemaName == g.name)
  references_eq : ∀ g ∈ doc.schemas,
    g.references = d.references.filter (schemaOf ·.source.schemaName == g.name)
  enumerations_eq : ∀ g ∈ doc.schemas,
    g.enumerations = d.enumerations.filter (schemaOf ·.schemaName == g.name)
  table_mem : ∀ t ∈ d.tables, schemaOf t.schemaName ∈ doc.schemas.map (·.name)
  reference_mem : ∀ r ∈ d.references, schemaOf r.source.schemaName ∈ doc.schemas.map (·.name)
  enumeration_mem : ∀ e ∈ d.enumerations, schemaOf e.schemaName ∈ doc.schemas.map (·.name)

/-- Nothing is left twice when duplicates are erased. -/
theorem nodup_eraseDups [BEq α] [LawfulBEq α] : (as : List α) → as.eraseDups.Nodup
  | [] => by simp
  | a :: as => by
    rw [List.eraseDups_cons, List.nodup_cons]
    have : (as.filter fun b => !b == a).length < as.length + 1 :=
      Nat.lt_succ_of_le (List.length_filter_le _ as)
    exact ⟨by simp, nodup_eraseDups _⟩
termination_by as => as.length

namespace Declarations

variable (d : Declarations)

theorem map_name_groups : d.groups.map (·.name) = d.schemaNames := by
  rw [groups, List.map_map]
  exact List.map_id _

theorem nodup_schemaNames : d.schemaNames.Nodup := nodup_eraseDups _

/-- A group has the declarations of its schema. -/
theorem eq_inSchema_of_mem_groups {g : SchemaGroup} (h : g ∈ d.groups) :
    g.toDeclarations = d.inSchema g.name := by
  obtain ⟨name, _, rfl⟩ := List.mem_map.1 h
  rfl

/-- The default schema is always there, and otherwise those in which something is declared. -/
theorem mem_schemaNames {name : String} : name ∈ d.schemaNames ↔
    name = defaultSchema ∨ (∃ t ∈ d.tables, schemaOf t.schemaName = name) ∨
      (∃ r ∈ d.references, schemaOf r.source.schemaName = name) ∨
      ∃ e ∈ d.enumerations, schemaOf e.schemaName = name := by
  simp [schemaNames]

end Declarations

/-- The document of declarations has exactly these. -/
theorem holds_ofDeclarations (d : Declarations) : (ofDeclarations d).Holds d where
  nodup_names := by
    rw [ofDeclarations, d.map_name_groups]
    exact d.nodup_schemaNames
  tables_eq g hg := congrArg (·.tables) (d.eq_inSchema_of_mem_groups hg)
  references_eq g hg := congrArg (·.references) (d.eq_inSchema_of_mem_groups hg)
  enumerations_eq g hg := congrArg (·.enumerations) (d.eq_inSchema_of_mem_groups hg)
  table_mem t ht := by
    rw [ofDeclarations, d.map_name_groups, d.mem_schemaNames]
    exact .inr (.inl ⟨t, ht, rfl⟩)
  reference_mem r hr := by
    rw [ofDeclarations, d.map_name_groups, d.mem_schemaNames]
    exact .inr (.inr (.inl ⟨r, hr, rfl⟩))
  enumeration_mem e he := by
    rw [ofDeclarations, d.map_name_groups, d.mem_schemaNames]
    exact .inr (.inr (.inr ⟨e, he, rfl⟩))

end SchemaDiagram.Document
