import SchemaDiagram.Schema

/-!
# SchemaDiagram.Proofs.Schema.OwnName

Which table a name at an end of a reference means.

A reference may call a table by its name or by its alias.  `Means` says which table that is, in the
words of the format: the name of a table goes before the alias of another one, and of several tables
with one alias the first is meant.  A name means one table at most (`Means.ownName_eq`), `ownName` is
the name of this table, and a name that means none stays (`means_ownName_or`).  What is resolved
means itself, so that resolving it again changes nothing (`map_resolve_references`).
-/

namespace SchemaDiagram.Schema

/-! ## The table of a name -/

/-- The name of the table that a name means. -/
inductive Means (tables : List Document.Table) (name : String) : String → Prop
  /-- There is a table of this name. -/
  | own (t : Document.Table) : t ∈ tables → t.name = name → Means tables name name
  /-- There is none, and this is the first table with such an alias. -/
  | viaAlias (before : List Document.Table) (t : Document.Table) (after : List Document.Table) :
      (∀ u ∈ tables, u.name ≠ name) → tables = before ++ t :: after →
      (∀ u ∈ before, u.aliasName ≠ some name) → t.aliasName = some name → Means tables name t.name

variable {tables : List Document.Table} {name t : String}

/-- Only tables are meant. -/
theorem Means.exists_mem (h : Means tables name t) : ∃ u ∈ tables, u.name = t := by
  cases h with
  | own u hu hname => exact ⟨u, hu, hname⟩
  | viaAlias before u after _ htables _ _ => exact ⟨u, by simp [htables], rfl⟩

/-- The name of a table is its own name. -/
theorem ownName_of_mem {u : Document.Table} (h : u ∈ tables) (hname : u.name = name) :
    ownName tables name = name := by
  have hany : tables.any (·.name == name) = true := List.any_eq_true.2 ⟨u, h, by simp [hname]⟩
  rw [ownName, if_pos hany]

/-- A name that no table has is looked for among the aliases. -/
theorem ownName_of_forall_ne (h : ∀ u ∈ tables, u.name ≠ name) :
    ownName tables name =
      ((tables.find? (·.aliasName == some name)).map (·.name)).getD name := by
  have hany : tables.any (·.name == name) = false := List.any_eq_false.2 fun u hu => by simp [h u hu]
  rw [ownName, hany, if_neg Bool.false_ne_true]
  split
  · rename_i u hfind
    rw [hfind, Option.map_some, Option.getD_some]
  · rename_i hfind
    rw [hfind, Option.map_none, Option.getD_none]

/-- The name of a table that is meant is the one that is found. -/
theorem Means.ownName_eq (h : Means tables name t) : ownName tables name = t := by
  cases h with
  | own u hu hname => exact ownName_of_mem hu hname
  | viaAlias before u after hnames htables hbefore halias =>
    have hfirst : tables.find? (·.aliasName == some name) = some u := by
      refine List.find?_eq_some_iff_append.2 ⟨by simp [halias], before, after, htables, ?_⟩
      intro v hv
      simp [hbefore v hv]
    rw [ownName_of_forall_ne hnames, hfirst, Option.map_some, Option.getD_some]

/-- What is found is the name of a table that is meant, or the name itself if it means none. -/
theorem means_ownName_or (tables : List Document.Table) (name : String) :
    Means tables name (ownName tables name) ∨
      (∀ t, ¬ Means tables name t) ∧ ownName tables name = name := by
  by_cases hname : ∃ u ∈ tables, u.name = name
  · obtain ⟨u, hu, huname⟩ := hname
    rw [ownName_of_mem hu huname]
    exact .inl (.own u hu huname)
  have hne : ∀ u ∈ tables, u.name ≠ name := fun u hu huname => hname ⟨u, hu, huname⟩
  rw [ownName_of_forall_ne hne]
  cases hfind : tables.find? (·.aliasName == some name) with
  | some u =>
    obtain ⟨halias, before, after, htables, hbefore⟩ := List.find?_eq_some_iff_append.1 hfind
    exact .inl (.viaAlias before u after hne htables (by simpa using hbefore) (by simpa using halias))
  | none =>
    refine .inr ⟨fun t ht => ?_, rfl⟩
    cases ht with
    | own u hu huname => exact hne u hu huname
    | viaAlias before u after _ htables _ halias =>
      have hmem : u ∈ tables := by simp [htables]
      exact absurd halias (by simpa using List.find?_eq_none.1 hfind u hmem)

/-- The name of a table goes before the alias of another. -/
example : ownName [{ name := "a" }, { name := "b", aliasName := some "a" }] "a" = "a" := by decide

/-- A name that means no table stands for itself. -/
theorem ownName_of_not_means (h : ∀ t, ¬ Means tables name t) : ownName tables name = name := by
  cases means_ownName_or tables name with
  | inl hmeans => exact absurd hmeans (h _)
  | inr hnone => exact hnone.2

/-- The name that is found is that of a table, or it means none. -/
theorem ownName_ownName (tables : List Document.Table) (name : String) :
    ownName tables (ownName tables name) = ownName tables name := by
  cases means_ownName_or tables name with
  | inl hmeans =>
    obtain ⟨u, hu, hname⟩ := hmeans.exists_mem
    exact ownName_of_mem hu hname
  | inr hnone => rw [hnone.2, hnone.2]

/-! ## References -/

/-- An end of a reference under the name that is written there. -/
def Endpoint.written (e : Document.Endpoint) : Endpoint := ⟨e.tableName, e.fieldNames, e.symbol⟩

/-- An end of a reference with its table called by its own name. -/
def Endpoint.resolve (tables : List Document.Table) (e : Endpoint) : Endpoint :=
  { e with tableName := ownName tables e.tableName }

/-- A reference with both tables called by their own names. -/
def Reference.resolve (tables : List Document.Table) (r : Reference) : Reference :=
  ⟨r.source.resolve tables, r.target.resolve tables⟩

/-- A schema has the ends of its references as they are written, resolved. -/
theorem Endpoint.resolve_written (tables : List Document.Table) (e : Document.Endpoint) :
    (written e).resolve tables = .of tables e := rfl

/-- An end that is resolved stays as it is when it is resolved again. -/
theorem Endpoint.resolve_resolve (tables : List Document.Table) (e : Endpoint) :
    (e.resolve tables).resolve tables = e.resolve tables := by
  rw [resolve, resolve, ownName_ownName]

/-- A reference of a schema stays as it is when it is resolved again. -/
theorem Reference.resolve_of (tables : List Document.Table) (r : Document.Reference) :
    (Reference.of tables r).resolve tables = .of tables r := by
  simp only [Reference.resolve, Reference.of, ← Endpoint.resolve_written, Endpoint.resolve_resolve]

/-- Resolving the references of a schema once more leaves them as they are. -/
theorem map_resolve_references (g : Document.SchemaGroup) :
    (ofGroup g).references.map (·.resolve g.tables) = (ofGroup g).references := by
  have hresolved : ∀ r ∈ (ofGroup g).references, r.resolve g.tables = id r := by
    intro r hr
    obtain ⟨declared, _, rfl⟩ := List.mem_map.1 hr
    exact Reference.resolve_of g.tables declared
  rw [List.map_congr_left hresolved, List.map_id]

end SchemaDiagram.Schema
