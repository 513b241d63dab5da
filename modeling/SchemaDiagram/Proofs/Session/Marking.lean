import SchemaDiagram.Proofs.Diagram.Nodes
import SchemaDiagram.Proofs.Diagram.NodeName
import SchemaDiagram.Session

/-!
# SchemaDiagram.Proofs.Session.Marking

The marks that a selection leaves on a diagram.

1. Marking changes marks only (`Session.unmarked_mark`).
2. A session knows a node by its name and takes the table from there.  So a container is marked when
   its name is read back to the selected table (`isSelected_mark`), and an edge when the name of one
   of its ends is (`isAnimated_mark`).
3. For which schemas that is the container of the selected table, and the edges at it, whatever is
   selected: those whose names are read back whole (`shows_mark_iff`).
-/

namespace SchemaDiagram

/-! ## Marks -/

/-- A node without its mark. -/
def Node.unmarked (n : Node) : Node := { n with isSelected := false }

/-- An edge without its mark. -/
def Edge.unmarked (e : Edge) : Edge := { e with isAnimated := false }

/-- A compilation without its marks. -/
def Compilation.unmarked (c : Compilation) : Compilation :=
  { c with nodes := c.nodes.map (·.unmarked), edges := c.edges.map (·.unmarked) }

/-- A diagram that is drawn has no marks. -/
theorem Compilation.unmarked_ofSchema (a : Appearance) (s : Schema) :
    (ofSchema a s).unmarked = ofSchema a s := by
  have hnodes : (ofSchema a s).nodes.map (·.unmarked) = (ofSchema a s).nodes := by
    have hsame : ∀ n ∈ (ofSchema a s).nodes, n.unmarked = id n := fun n hn => by
      obtain ⟨t, _, _, hmark⟩ := Diagram.exists_part hn
      rw [Node.unmarked, ← hmark, id]
    rw [List.map_congr_left hsame, List.map_id]
  have hedges : (ofSchema a s).edges.map (·.unmarked) = (ofSchema a s).edges := by
    change (s.references.map Diagram.edge).map (·.unmarked) = s.references.map Diagram.edge
    rw [List.map_map]
    rfl
  rw [unmarked, hnodes, hedges]

namespace Session

/-- Marking leaves everything but the marks as it is. -/
theorem unmarked_mark (session : Session) (c : Compilation) :
    (session.mark c).unmarked = c.unmarked := by
  simp [Compilation.unmarked, mark, Node.unmarked, Edge.unmarked, Function.comp_def]

variable {session : Session} {a : Appearance} {s : Schema}

/-! ## Marks on a diagram -/

/-- A container is marked if its name is read back to the selected table, and no other node is. -/
theorem isSelected_mark {n : Node} (h : n ∈ (session.mark (.ofSchema a s)).nodes) :
    n.isSelected = true ↔ n.kind = .container ∧ session.selected = some (nodeTable n.label) := by
  obtain ⟨m, hm, rfl⟩ := List.mem_map.1 h
  obtain ⟨t, _, hpart, _⟩ := Diagram.exists_part hm
  cases hpart with
  | container hkind hid hlabel =>
    simp [hkind, hid, hlabel, hasSelected, tableName_ofNode_tableNode]
  | header hkind hid => simp [hkind]
  | field f hf hkind hid => simp [hkind]

/-- The edge of a reference is marked if the name of the node at one end is read back to the
selected table. -/
theorem isAnimated_mark (session : Session) (a : Appearance) {i : Nat} {r : Schema.Reference}
    (h : s.references[i]? = some r) :
    ∃ e, (session.mark (.ofSchema a s)).edges[i]? = some e ∧ (e.isAnimated = true ↔
      session.selected = some (endTable r.source) ∨
        session.selected = some (endTable r.target)) := by
  refine ⟨{ Diagram.edge r with
    isAnimated := session.hasSelected (Diagram.endNode r.source) ||
      session.hasSelected (Diagram.endNode r.target) }, ?_, ?_⟩
  · simp [mark, Compilation.ofSchema, Diagram.edges, h, Diagram.edge]
  · simp [hasSelected, tableName_ofNode_endNode]

/-- Every table has its container in the marked diagram. -/
theorem exists_container_mark (session : Session) (a : Appearance) {t : Schema.Table}
    (h : t ∈ s.tables) :
    ∃ n ∈ (session.mark (.ofSchema a s)).nodes, n.kind = .container ∧ n.label = t.name := by
  obtain ⟨n, hn, hkind, _, hlabel⟩ := Diagram.exists_container a.layout a.theme h
  exact ⟨_, List.mem_map_of_mem hn, hkind, hlabel⟩

/-- Without a selection nothing is marked. -/
theorem mark_of_none (h : session.selected = none) :
    session.mark (.ofSchema a s) = .ofSchema a s := by
  have hnone : ∀ node, session.hasSelected node = false := fun node => by simp [hasSelected, h]
  calc session.mark (.ofSchema a s)
      = (Compilation.ofSchema a s).unmarked := by
        simp [mark, hnone, Compilation.unmarked, Node.unmarked, Edge.unmarked]
    _ = .ofSchema a s := Compilation.unmarked_ofSchema a s

end Session

/-! ## Schemas whose marks are right -/

/-- A schema all of whose nodes are read back to their tables. -/
structure Schema.IsReadable (s : Schema) : Prop where
  tables : ∀ t ∈ s.tables, SchemaDiagram.IsReadable t.name
  sources : ∀ r ∈ s.references, r.source.IsReadable
  targets : ∀ r ∈ s.references, r.target.IsReadable

/-- The diagram of a schema shows a selection: the container of the selected table is marked, and
the edge of every reference that begins or ends at this table. -/
structure Compilation.Shows (selected : Option String) (s : Schema) (c : Compilation) : Prop where
  nodes : ∀ n ∈ c.nodes, n.isSelected = true ↔ n.kind = .container ∧ selected = some n.label
  edges : ∀ (i : Nat) (r : Schema.Reference), s.references[i]? = some r →
    ∃ e, c.edges[i]? = some e ∧
    (e.isAnimated = true ↔
      selected = some r.source.tableName ∨ selected = some r.target.tableName)

/-- An end that is not read back to its table is read back to another one than the other end is
attached to, or this end is not read back to its table either. -/
theorem Schema.Endpoint.isReadable_of_iff {e other : Schema.Endpoint}
    (h : ∀ t, endTable e = t ∨ endTable other = t ↔ e.tableName = t ∨ other.tableName = t) :
    e.IsReadable := by
  have hpoint : '.' ∉ e.tableName.toList := by
    cases (h e.tableName).2 (.inl rfl) with
    | inl he => exact he ▸ not_mem_endTable e
    | inr ho => exact ho ▸ not_mem_endTable other
  refine ⟨hpoint, fun hnil hempty => ?_⟩
  have hend : endTable e = tableSuffix := by rw [endTable, if_pos hnil, nodeTable, if_pos hempty]
  -- the other end is attached to a table named `parent`, so that nothing is read back to `""`
  have hother : other.tableName = tableSuffix := by
    cases (h tableSuffix).1 (.inl hend) with
    | inl he => rw [hempty] at he; exact absurd he (by decide)
    | inr ho => exact ho
  have hreadable : other.IsReadable := by
    rw [Schema.Endpoint.IsReadable, hother]
    exact ⟨by decide, fun _ => by decide⟩
  cases (h "").2 (.inl hempty) with
  | inl he => rw [hend] at he; exact absurd he (by decide)
  | inr ho =>
    rw [endTable_of_isReadable hreadable, hother] at ho
    exact absurd ho (by decide)

namespace Session

variable {a : Appearance} {s : Schema}

/-- With readable names exactly the container of the selected table is marked, and the edges at that
table. -/
theorem shows_mark_of_isReadable (h : s.IsReadable) (session : Session) (a : Appearance) :
    (session.mark (.ofSchema a s)).Shows session.selected s where
  nodes n hn := by
    rw [isSelected_mark hn]
    refine and_congr_right fun hkind => ?_
    obtain ⟨m, hm, rfl⟩ := List.mem_map.1 hn
    obtain ⟨t, ht, hpart, _⟩ := Diagram.exists_part hm
    cases hpart with
    | container _ _ hlabel =>
      have hlabel' : m.label = t.name := hlabel
      rw [hlabel', nodeTable_of_isReadable (h.tables t ht)]
    | header hheader _ => exact absurd (hheader.symm.trans hkind) (by decide)
    | field f _ hfield _ => exact absurd (hfield.symm.trans hkind) (by decide)
  edges i r hr := by
    have hmem : r ∈ s.references := List.mem_of_getElem? hr
    rw [← endTable_of_isReadable (h.sources r hmem), ← endTable_of_isReadable (h.targets r hmem)]
    exact isAnimated_mark session a hr

/-- Select what the node of a table, or an end of a reference, is read back to. -/
theorem isReadable_of_shows_mark
    (h : ∀ session : Session, (session.mark (.ofSchema a s)).Shows session.selected s) :
    s.IsReadable := by
  have hends : ∀ r ∈ s.references, ∀ t, endTable r.source = t ∨ endTable r.target = t ↔
      r.source.tableName = t ∨ r.target.tableName = t := fun r hr t => by
    obtain ⟨i, hi⟩ := List.mem_iff_getElem?.1 hr
    obtain ⟨e, he, hmarked⟩ := isAnimated_mark { selected := some t } a hi
    obtain ⟨e', he', hshown⟩ := (h { selected := some t }).edges i r hi
    cases he.symm.trans he'
    have heq := hmarked.symm.trans hshown
    simp only [Option.some.injEq] at heq
    simpa only [eq_comm] using heq
  refine ⟨fun t ht => isReadable_of_nodeTable ?_, fun r hr => ?_, fun r hr => ?_⟩
  · have hshows := h { selected := some (nodeTable t.name) }
    obtain ⟨n, hn, hkind, hlabel⟩ := exists_container_mark { selected := some (nodeTable t.name) } a ht
    have hmarked : n.isSelected = true :=
      (isSelected_mark hn).2 ⟨hkind, congrArg (some ∘ nodeTable) hlabel.symm⟩
    exact (Option.some.inj ((hshows.nodes n hn).1 hmarked).2).trans hlabel
  · exact Schema.Endpoint.isReadable_of_iff (hends r hr)
  · exact Schema.Endpoint.isReadable_of_iff fun t => by
      simpa only [or_comm] using hends r hr t

/-- **The marks show the selection, whatever is selected, exactly if all nodes are read back to
their tables**: no table and no end of a reference has a name with a point in it or an empty one, an
end at a field excepted, which may be at a table with an empty name.  Without a selection nothing
is marked in any case, and the diagram without its marks is always that of the schema. -/
theorem shows_mark_iff (a : Appearance) (s : Schema) :
    ((∀ session : Session, (session.mark (.ofSchema a s)).Shows session.selected s) ↔
      s.IsReadable) ∧
    ∀ session : Session, (session.mark (.ofSchema a s)).unmarked = .ofSchema a s ∧
      (session.selected = none → session.mark (.ofSchema a s) = .ofSchema a s) := by
  refine ⟨⟨isReadable_of_shows_mark, fun h session => shows_mark_of_isReadable h session a⟩,
    fun session => ⟨?_, mark_of_none⟩⟩
  rw [unmarked_mark, Compilation.unmarked_ofSchema]

/-- Two tables whose nodes are both read back to the first. -/
def pointed : Schema := { tables := [{ name := "a" }, { name := "a.b" }] }

/-- With `a` selected, the container of the table `a.b` is marked, too. -/
theorem not_shows_mark_pointed :
    ¬ (({ selected := some "a" } : Session).mark (.ofSchema {} pointed)).Shows (some "a")
      pointed := by
  intro h
  have hmem : { name := "a.b" } ∈ pointed.tables := by decide
  obtain ⟨n, hn, hkind, hlabel⟩ := exists_container_mark { selected := some "a" } {} hmem
  have hread : some "a" = some (nodeTable n.label) := by
    rw [hlabel]
    decide
  have hmarked := (isSelected_mark hn).2 ⟨hkind, hread⟩
  have hshown := ((h.nodes n hn).1 hmarked).2
  rw [hlabel] at hshown
  exact absurd hshown (by decide)

end Session

end SchemaDiagram
