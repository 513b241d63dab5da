import Mathlib.Data.List.Nodup
import Mathlib.Data.List.Pairwise
import SchemaDiagram.Proofs.Diagram.NodeName
import SchemaDiagram.Proofs.Diagram.Nodes

/-!
# SchemaDiagram.Proofs.Diagram.Distinct

Which schemas give every node an id of its own.

The ids of containers, headers and fields are put together from names without any marking of where a
name ends, and all of them share one space.  Two tables of different names `t` and `u` get the same
id only where one name goes on from the other behind a point, `u = t.x`, and then a field of `t`
plays the part of the rest:

| id of a part of `t.x` | is that of the field of `t` named |
|-----------------------|-----------------------------------|
| `t.xparent`           | `xparent`                         |
| `t.x.header`          | `x.header`                        |
| `t.x.f`               | `x.f`                             |

that is, a field of `t` has the name of a node that the other table would have if it were called `x`.
Within a table, only a field named `header` takes the id of another part.
-/

namespace SchemaDiagram

/-! ## Names behind a point -/

/-- A name of two parts is the first with the name of the second behind it. -/
theorem fieldNode_fieldNode (t x f : String) :
    fieldNode (fieldNode t x) f = fieldNode t (fieldNode x f) := by
  simp only [fieldNode, String.append_assoc]

/-- A table whose name goes on from another one has a node whose name does so, too. -/
theorem tableNode_fieldNode (t x : String) :
    tableNode (fieldNode t x) = fieldNode t (tableNode x) := by
  simp only [tableNode, fieldNode, String.append_assoc]

/-- No name goes on from itself. -/
theorem ne_fieldNode (t x : String) : t ≠ fieldNode t x := by
  intro h
  have hlength := congrArg (fun s => s.toList.length) h
  rw [Element.toList_fieldNode, List.length_append, List.length_cons] at hlength
  omega

/-- Nodes of one table are told apart by their fields. -/
theorem fieldNode_right_inj {t f g : String} : fieldNode t f = fieldNode t g ↔ f = g := by
  refine ⟨fun h => ?_, congrArg _⟩
  have hlist := congrArg String.toList h
  rw [Element.toList_fieldNode, Element.toList_fieldNode] at hlist
  exact String.toList_inj.1 (List.cons.inj (List.append_cancel_left hlist)).2

/-- Containers are told apart by their tables. -/
theorem tableNode_inj {t u : String} : tableNode t = tableNode u ↔ t = u := by
  refine ⟨fun h => ?_, congrArg _⟩
  have hlist := congrArg String.toList h
  rw [tableNode, tableNode, String.toList_append, String.toList_append] at hlist
  exact String.toList_inj.1 (List.append_cancel_right hlist)

/-- What a longer name has behind a shorter one is a point and a name, if a field of the shorter one
is called so. -/
theorem exists_fieldNode_of_append {t u g : String} {cs rest : List Char}
    (hname : u.toList = t.toList ++ cs) (hne : cs ≠ []) (h : '.' :: g.toList = cs ++ rest) :
    ∃ x, u = fieldNode t x ∧ g.toList = x.toList ++ rest := by
  obtain ⟨c, xs, rfl⟩ := List.exists_cons_of_ne_nil hne
  rw [List.cons_append, List.cons.injEq] at h
  obtain ⟨rfl, h⟩ := h
  refine ⟨String.ofList xs, ?_, by rw [String.toList_ofList, h]⟩
  rw [← String.toList_inj, Element.toList_fieldNode, String.toList_ofList, hname]

/-- Fields of two tables share a name only if they are the same or one table's name goes on from the
other's. -/
theorem fieldNode_eq_fieldNode {t u f g : String} (h : fieldNode t f = fieldNode u g) :
    (t = u ∧ f = g) ∨ (∃ x, u = fieldNode t x ∧ f = fieldNode x g) ∨
      ∃ x, t = fieldNode u x ∧ g = fieldNode x f := by
  by_cases hname : t = u
  · subst hname
    exact .inl ⟨rfl, fieldNode_right_inj.1 h⟩
  have hlist := congrArg String.toList h
  rw [Element.toList_fieldNode, Element.toList_fieldNode] at hlist
  refine .inr ?_
  rcases List.append_eq_append_iff.1 hlist with ⟨cs, hu, hf⟩ | ⟨cs, ht, hg⟩
  · have hne : cs ≠ [] := by
      rintro rfl
      exact hname (String.toList_inj.1 (by simpa using hu.symm))
    obtain ⟨x, hx, hfg⟩ := exists_fieldNode_of_append hu hne hf
    exact .inl ⟨x, hx, String.toList_inj.1 (hfg.trans (Element.toList_fieldNode x g).symm)⟩
  · have hne : cs ≠ [] := by
      rintro rfl
      exact hname (String.toList_inj.1 (by simpa using ht))
    obtain ⟨x, hx, hgf⟩ := exists_fieldNode_of_append ht hne hg
    exact .inr ⟨x, hx, String.toList_inj.1 (hgf.trans (Element.toList_fieldNode x f).symm)⟩

/-- A table's node has the name of a field only if the table's name goes on from the other's. -/
theorem tableNode_eq_fieldNode {t u g : String} (h : tableNode t = fieldNode u g) :
    ∃ x, t = fieldNode u x ∧ g = tableNode x := by
  have hlist := congrArg String.toList h
  rw [Element.toList_fieldNode, tableNode, String.toList_append] at hlist
  have hpoint : ∀ cs, tableSuffix.toList ≠ cs ++ '.' :: g.toList := fun cs hsuffix =>
    absurd (hsuffix ▸ List.mem_append_right cs List.mem_cons_self : '.' ∈ tableSuffix.toList)
      (by decide)
  rcases List.append_eq_append_iff.1 hlist with ⟨cs, -, hg⟩ | ⟨cs, ht, hg⟩
  · exact absurd hg (hpoint cs)
  · have hne : cs ≠ [] := by
      rintro rfl
      exact hpoint [] hg.symm
    obtain ⟨x, hx, hgx⟩ := exists_fieldNode_of_append ht hne hg
    refine ⟨x, hx, String.toList_inj.1 ?_⟩
    rw [hgx, tableNode, String.toList_append]

/-- No container is called like the header: they end in different letters. -/
theorem headerName_ne_tableNode (x : String) : headerName ≠ tableNode x := by
  intro h
  have hlast := congrArg (fun s => s.toList.getLast?) h
  simp [tableNode, headerName, tableSuffix] at hlast

/-- No node of a field is called like the header, which has no point. -/
theorem headerName_ne_fieldNode (x f : String) : headerName ≠ fieldNode x f := by
  intro h
  have hmem : '.' ∈ headerName.toList := by
    rw [h, Element.toList_fieldNode]
    exact List.mem_append_right _ List.mem_cons_self
  exact absurd hmem (by decide)

/-! ## The ids of a table -/

namespace Schema.Table

/-- The names of a table's rows, the header's first. -/
def rowNames (t : Table) : List String := headerName :: t.fields.map (·.name)

/-- The ids that the nodes of a table have under a name. -/
def idsUnder (t : Table) (name : String) : List String :=
  tableNode name :: t.rowNames.map (fieldNode name)

variable {t u : Table} {id name x f : String}

/-- The ids of a table are those of its container and of its rows. -/
theorem mem_idsUnder : id ∈ t.idsUnder name ↔
    id = tableNode name ∨ ∃ f ∈ t.rowNames, fieldNode name f = id := by
  rw [idsUnder, List.mem_cons, List.mem_map]

/-- No node is called like the header of its table alone, without a name before it. -/
theorem headerName_not_mem_idsUnder : headerName ∉ t.idsUnder name := by
  rw [mem_idsUnder]
  rintro (h | ⟨f, -, h⟩)
  · exact headerName_ne_tableNode name h
  · exact headerName_ne_fieldNode name f h.symm

/-- Behind a table's name and a point, the ids of another table are names that a field can have. -/
theorem idsUnder_fieldNode (t : Table) (name x : String) :
    t.idsUnder (fieldNode name x) = (t.idsUnder x).map (fieldNode name) := by
  have hrows : fieldNode (fieldNode name x) = fieldNode name ∘ fieldNode x :=
    funext (fieldNode_fieldNode name x)
  rw [idsUnder, idsUnder, List.map_cons, List.map_map, tableNode_fieldNode, hrows]

/-- The rows of a table are told apart exactly if its fields are, and none is called like the
header. -/
theorem nodup_rowNames : t.rowNames.Nodup ↔
    (t.fields.map (·.name)).Nodup ∧ ∀ f ∈ t.fields, f.name ≠ headerName := by
  rw [rowNames, List.nodup_cons, List.mem_map, and_comm]
  simp only [not_exists, not_and, ne_eq]

/-- The container has an id of its own: only rows can share one. -/
theorem nodup_idsUnder : (t.idsUnder name).Nodup ↔ t.rowNames.Nodup := by
  have hcontainer : tableNode name ∉ t.rowNames.map (fieldNode name) := by
    intro hmem
    obtain ⟨f, -, hf⟩ := List.mem_map.1 hmem
    obtain ⟨x, hx, -⟩ := tableNode_eq_fieldNode hf.symm
    exact ne_fieldNode name x hx
  rw [idsUnder, List.nodup_cons, and_iff_right hcontainer]
  exact List.nodup_map_iff fun _ _ => fieldNode_right_inj.1

/-- A field of a table that is called like a node of another table under the rest of its name. -/
def Covers (t u : Table) : Prop :=
  ∃ x, u.name = fieldNode t.name x ∧ ∃ f ∈ t.fields, f.name ∈ u.idsUnder x

/-- A row called like a node of another table is that of a field, since no node is called like the
header. -/
theorem covers_of_row (hname : u.name = fieldNode t.name x) (hrow : f ∈ t.rowNames)
    (hid : f ∈ u.idsUnder x) : t.Covers u := by
  rcases List.mem_cons.1 hrow with rfl | hfield
  · exact absurd hid headerName_not_mem_idsUnder
  · obtain ⟨g, hg, rfl⟩ := List.mem_map.1 hfield
    exact ⟨x, hname, g, hg, hid⟩

/-- Tables of different names share an id only if a field of one is called like a node of the
other. -/
theorem covers_of_mem_of_mem (hne : t.name ≠ u.name) (ht : id ∈ t.idsUnder t.name)
    (hu : id ∈ u.idsUnder u.name) : t.Covers u ∨ u.Covers t := by
  rcases mem_idsUnder.1 ht with rfl | ⟨f, hf, rfl⟩
  · rcases mem_idsUnder.1 hu with h | ⟨g, hg, h⟩
    · exact absurd (tableNode_inj.1 h) hne
    · obtain ⟨x, hname, rfl⟩ := tableNode_eq_fieldNode h.symm
      exact .inr (covers_of_row hname hg (mem_idsUnder.2 (.inl rfl)))
  · rcases mem_idsUnder.1 hu with h | ⟨g, hg, h⟩
    · obtain ⟨x, hname, rfl⟩ := tableNode_eq_fieldNode h.symm
      exact .inl (covers_of_row hname hf (mem_idsUnder.2 (.inl rfl)))
    · rcases fieldNode_eq_fieldNode h.symm with
        ⟨hname, -⟩ | ⟨x, hname, rfl⟩ | ⟨x, hname, rfl⟩
      · exact absurd hname hne
      · exact .inl (covers_of_row hname hf (mem_idsUnder.2 (.inr ⟨g, hg, rfl⟩)))
      · exact .inr (covers_of_row hname hg (mem_idsUnder.2 (.inr ⟨f, hf, rfl⟩)))

/-- The node that a field is called like has the field's id. -/
theorem Covers.exists_id (h : t.Covers u) :
    ∃ id ∈ t.idsUnder t.name, id ∈ u.idsUnder u.name := by
  obtain ⟨x, hname, f, hf, hid⟩ := h
  refine ⟨fieldNode t.name f.name, mem_idsUnder.2 (.inr ⟨f.name, ?_, rfl⟩), ?_⟩
  · exact List.mem_cons_of_mem _ (List.mem_map_of_mem hf)
  · rw [hname, idsUnder_fieldNode]
    exact List.mem_map_of_mem hid

/-- A name that goes on from another one is a different name. -/
theorem Covers.name_ne (h : t.Covers u) : t.name ≠ u.name := by
  obtain ⟨x, hname, -⟩ := h
  exact fun heq => ne_fieldNode t.name x (heq.trans hname)

end Schema.Table

/-! ## The ids of a schema -/

/-- Every table has a name of its own, in it every field has one that is not the header's, and no
field is called like a node of another table under the rest of that table's name. -/
structure Schema.HasOwnIds (s : Schema) : Prop where
  tables : s.tableNames.Nodup
  fields : ∀ t ∈ s.tables, (t.fields.map (·.name)).Nodup
  header : ∀ t ∈ s.tables, ∀ f ∈ t.fields, f.name ≠ headerName
  behind : ∀ t ∈ s.tables, ∀ u ∈ s.tables, ¬ t.Covers u

namespace Diagram

variable {s : Schema}

/-- The nodes of a table have the ids that are made of its name. -/
theorem map_id_tableNodes (l : Layout) (theme : String) (index : Nat) (t : Schema.Table) :
    (tableNodes l theme index t).map (·.id) = t.idsUnder t.name := by
  have hrows : (t.fields.mapIdx (row l theme t)).map (·.id) =
      t.fields.map (fieldNode t.name ·.name) := by
    refine map_mapIdx (fun i f => ?_) t.fields
    rfl
  rw [tableNodes, List.map_cons, List.map_cons, hrows, Schema.Table.idsUnder,
    Schema.Table.rowNames, List.map_cons, List.map_map]
  rfl

/-- The ids of a diagram are those of its tables, in order. -/
theorem map_id_nodes (l : Layout) (theme : String) (s : Schema) :
    (nodes l theme s).map (·.id) = s.tables.flatMap fun t => t.idsUnder t.name := by
  rw [nodes, List.map_flatten, map_mapIdx (map_id_tableNodes l theme), List.flatMap]

/-- Every node has an id of its own exactly if the names in the schema allow for it. -/
theorem nodup_ids_iff (l : Layout) (theme : String) (s : Schema) :
    ((nodes l theme s).map (·.id)).Nodup ↔ s.HasOwnIds := by
  rw [map_id_nodes, List.nodup_flatMap]
  constructor
  · rintro ⟨hwithin, hapart⟩
    have hsymm : Std.Symm (Function.onFun List.Disjoint fun t : Schema.Table => t.idsUnder t.name) :=
      ⟨fun _ _ h _ hu ht => h ht hu⟩
    refine ⟨?_, ?_, ?_, ?_⟩
    · refine List.pairwise_map.2 (hapart.imp fun {t u} hdisjoint hname => ?_)
      exact hdisjoint List.mem_cons_self (hname ▸ List.mem_cons_self)
    · exact fun t ht => (Schema.Table.nodup_rowNames.1
        (Schema.Table.nodup_idsUnder.1 (hwithin t ht))).1
    · exact fun t ht => (Schema.Table.nodup_rowNames.1
        (Schema.Table.nodup_idsUnder.1 (hwithin t ht))).2
    · intro t ht u hu hcovers
      obtain ⟨id, hidt, hidu⟩ := hcovers.exists_id
      exact hapart.forall ht hu (fun he => hcovers.name_ne (congrArg _ he)) hidt hidu
  · intro h
    refine ⟨fun t ht => ?_, ?_⟩
    · exact Schema.Table.nodup_idsUnder.2
        (Schema.Table.nodup_rowNames.2 ⟨h.fields t ht, h.header t ht⟩)
    · refine (List.pairwise_map.1 h.tables).imp_of_mem fun {t u} ht hu hname id hidt hidu => ?_
      rcases Schema.Table.covers_of_mem_of_mem hname hidt hidu with hcovers | hcovers
      · exact h.behind t ht u hu hcovers
      · exact h.behind u hu t ht hcovers

/-- Names of tables and fields that differ are not enough: a field may be called like the header. -/
theorem not_nodup_ids_of_nodup_names :
    ¬ ∀ (l : Layout) (theme : String) (s : Schema), s.tableNames.Nodup →
      (∀ t ∈ s.tables, (t.fields.map (·.name)).Nodup) → ((nodes l theme s).map (·.id)).Nodup := by
  intro h
  let s : Schema := { tables := [{ name := "t", fields := [⟨"header", "int", none⟩] }] }
  have hids := h {} "light" s (by decide) (by decide)
  rw [map_id_nodes] at hids
  exact absurd hids (by decide)

end Diagram

end SchemaDiagram
