import SchemaDiagram.Diagram

/-!
# SchemaDiagram.Proofs.Diagram.Nodes

The nodes of a schema, one by one.

Every node of a diagram is a part of one of its tables (`exists_part`): the container, the header or
a field.  Every table has its container among the nodes (`exists_container`) and every field its row
(`exists_row`), and the containers carry the names of the tables, in order (`labels_of_containers`).
-/

namespace SchemaDiagram.Diagram

variable {l : Layout} {theme : String} {s : Schema} {n : Node}

/-- What does not depend on the place in a list is the same without the places. -/
theorem map_mapIdx {α β γ : Type} {f : Nat → α → β} {g : β → γ} {h : α → γ}
    (hfg : ∀ i a, g (f i a) = h a) (xs : List α) : (xs.mapIdx f).map g = xs.map h :=
  List.ext_getElem (by simp) fun i _ _ => by simp [hfg]

/-- What a node shows of a table. -/
inductive Part (t : Schema.Table) (n : Node) : Prop
  | container : n.kind = .container → n.id = tableNode t.name → n.label = t.name → Part t n
  | header : n.kind = .header → n.id = headerNode t.name → Part t n
  | field (f : Schema.Field) :
      f ∈ t.fields → n.kind = .field → n.id = fieldNode t.name f.name → Part t n

/-- A node of a table shows a part of it and is not selected. -/
theorem mem_tableNodes {index : Nat} {t : Schema.Table} (h : n ∈ tableNodes l theme index t) :
    Part t n ∧ n.isSelected = false := by
  rw [tableNodes, List.mem_cons, List.mem_cons] at h
  rcases h with rfl | rfl | hrow
  · exact ⟨.container rfl rfl rfl, rfl⟩
  · exact ⟨.header rfl rfl, rfl⟩
  · obtain ⟨i, hi, rfl⟩ := List.mem_mapIdx.1 hrow
    exact ⟨.field t.fields[i] (List.getElem_mem hi) rfl rfl, rfl⟩

/-- Every node of a diagram shows a part of one of its tables and is not selected. -/
theorem exists_part (h : n ∈ nodes l theme s) :
    ∃ t ∈ s.tables, Part t n ∧ n.isSelected = false := by
  obtain ⟨ns, hns, hn⟩ := List.mem_flatten.1 h
  obtain ⟨i, hi, rfl⟩ := List.mem_mapIdx.1 hns
  exact ⟨s.tables[i], List.getElem_mem hi, mem_tableNodes hn⟩

/-- The nodes of a table that is drawn are among those of the diagram, wherever they are placed. -/
theorem exists_tableNodes_subset (l : Layout) (theme : String) {t : Schema.Table}
    (h : t ∈ s.tables) : ∃ i, tableNodes l theme i t ⊆ nodes l theme s := by
  obtain ⟨i, hi, rfl⟩ := List.mem_iff_getElem.1 h
  refine ⟨i, fun n hn => ?_⟩
  exact List.mem_flatten.2 ⟨tableNodes l theme i s.tables[i], List.mem_mapIdx.2 ⟨i, hi, rfl⟩, hn⟩

/-- Each table has a container with its name. -/
theorem exists_container (l : Layout) (theme : String) {t : Schema.Table} (h : t ∈ s.tables) :
    ∃ n ∈ nodes l theme s, n.kind = .container ∧ n.id = tableNode t.name ∧ n.label = t.name := by
  obtain ⟨i, hsubset⟩ := exists_tableNodes_subset l theme h
  exact ⟨container l theme i t, hsubset List.mem_cons_self, rfl, rfl, rfl⟩

/-- Each field has a row in the container of its table. -/
theorem exists_row (l : Layout) (theme : String) {t : Schema.Table} (h : t ∈ s.tables)
    {f : Schema.Field} (hf : f ∈ t.fields) :
    ∃ n ∈ nodes l theme s, n.kind = .field ∧ n.id = fieldNode t.name f.name ∧ n.label = f.name ∧
      n.parent = some (tableNode t.name) := by
  obtain ⟨i, hsubset⟩ := exists_tableNodes_subset l theme h
  obtain ⟨k, hk, rfl⟩ := List.mem_iff_getElem.1 hf
  refine ⟨row l theme t k t.fields[k], hsubset ?_, rfl, rfl, rfl, rfl⟩
  exact List.mem_cons_of_mem _ (List.mem_cons_of_mem _ (List.mem_mapIdx.2 ⟨k, hk, rfl⟩))

/-! ## Containers -/

/-- One of the nodes of a table is a container, and it is the first one. -/
theorem filter_tableNodes (index : Nat) (t : Schema.Table) :
    (tableNodes l theme index t).filter (·.kind == .container) = [container l theme index t] := by
  have hrows : (t.fields.mapIdx (row l theme t)).filter (·.kind == .container) = [] := by
    rw [List.filter_eq_nil_iff]
    intro n hn
    obtain ⟨i, hi, rfl⟩ := List.mem_mapIdx.1 hn
    simp [row]
  rw [tableNodes, List.filter_cons_of_pos (by simp [container]),
    List.filter_cons_of_neg (by simp [header]), hrows]

/-- The containers carry the names of the tables, wherever the tables stand. -/
theorem labels_flatten (place : Nat → Nat) (ts : List Schema.Table) :
    (((ts.mapIdx fun i t => tableNodes l theme (place i) t).flatten).filter
      (·.kind == .container)).map (·.label) = ts.map (·.name) := by
  induction ts generalizing place with
  | nil => rfl
  | cons t ts ih =>
    rw [List.mapIdx_cons, List.flatten_cons, List.filter_append, List.map_append,
      filter_tableNodes, ih (fun i => place (i + 1))]
    rfl

/-- The containers carry the names of the tables of a schema, in order. -/
theorem labels_of_containers (l : Layout) (theme : String) (s : Schema) :
    ((nodes l theme s).filter (·.kind == .container)).map (·.label) = s.tableNames :=
  labels_flatten id s.tables

end SchemaDiagram.Diagram
