import Mathlib.Data.List.Forall2
import SchemaDiagram.Compilation
import SchemaDiagram.Proofs.Diagram.Nodes
import SchemaDiagram.Proofs.Schema.OwnName

/-!
# SchemaDiagram.Proofs.Diagram.Edges

What the edges of a diagram are attached to.

Nodes and edges are made apart from each other: both put ids together from the names that they have,
those of the tables or those at the ends of the references.  They meet wherever the name at an end
means a table (`attaches_endNode`), so that every reference is drawn between nodes of its tables, as
far as it has any (`draws_edges`).
-/

namespace SchemaDiagram

open Schema (Means)

/-! ## The schema that is shown -/

/-- The part of a document that a diagram shows: its first schema, an empty one if it has none. -/
def Document.shown (d : Document) : Document.SchemaGroup :=
  d.schemas.headD { name := Document.defaultSchema }

/-- A document is shown as its first schema. -/
theorem Schema.ofDocument_eq (d : Document) : ofDocument (some d) = ofGroup d.shown := by
  obtain ⟨schemas⟩ := d
  cases schemas with
  | nil => rfl
  | cons first more => rfl

/-! ## Ends of edges -/

/-- An id is the one that an edge has to have at an end of a reference, among tables and the nodes
that are drawn of them. -/
structure Document.Endpoint.Attaches (tables : List Document.Table) (nodes : List Node)
    (e : Document.Endpoint) (id : String) : Prop where
  /-- Without a field, an end is at the container of its table. -/
  container : ∀ t, Means tables e.tableName t → e.fieldNames = [] →
    ∃ n ∈ nodes, n.kind = .container ∧ n.label = t ∧ n.id = id
  /-- Otherwise it is at the row of the first field, inside the container of the table. -/
  field : ∀ t f more, Means tables e.tableName t → e.fieldNames = f :: more →
    (∃ u ∈ tables, u.name = t ∧ ∃ x ∈ u.fields, x.name = f) →
    ∃ n ∈ nodes, n.kind = .field ∧ n.label = f ∧ n.id = id ∧
      ∃ c ∈ nodes, c.kind = .container ∧ c.label = t ∧ n.parent = some c.id
  /-- A name that means no table stands for itself. -/
  unknown : (∀ t, ¬ Means tables e.tableName t) → id = Diagram.endNode (.written e)

/-- An edge draws a reference. -/
structure Edge.Draws (tables : List Document.Table) (nodes : List Node) (r : Document.Reference)
    (e : Edge) : Prop where
  startLabel : e.startLabel = r.source.symbol
  endLabel : e.endLabel = r.target.symbol
  source : r.source.Attaches tables nodes e.source
  target : r.target.Attaches tables nodes e.target

namespace Diagram

variable {g : Document.SchemaGroup} {t f : String}

/-- An end without fields is at the container of its table. -/
theorem endNode_of_nil {e : Schema.Endpoint} (h : e.fieldNames = []) :
    endNode e = tableNode e.tableName := by
  rw [endNode, h]

/-- An end with fields is at the row of the first one. -/
theorem endNode_of_cons {e : Schema.Endpoint} {more : List String} (h : e.fieldNames = f :: more) :
    endNode e = fieldNode e.tableName f := by
  rw [endNode, h]

/-- A table that is meant has its container. -/
theorem exists_container_of_means (l : Layout) (theme : String) {name : String}
    (h : Means g.tables name t) :
    ∃ n ∈ nodes l theme (.ofGroup g), n.kind = .container ∧ n.label = t ∧ n.id = tableNode t := by
  obtain ⟨u, hu, rfl⟩ := h.exists_mem
  have hmem : Schema.Table.of u ∈ (Schema.ofGroup g).tables := List.mem_map_of_mem hu
  obtain ⟨n, hn, hkind, hid, hlabel⟩ := exists_container l theme hmem
  exact ⟨n, hn, hkind, hlabel, hid⟩

/-- A field of a table has its row, in the container of the table. -/
theorem exists_row_of_mem (l : Layout) (theme : String)
    (h : ∃ u ∈ g.tables, u.name = t ∧ ∃ x ∈ u.fields, x.name = f) :
    ∃ n ∈ nodes l theme (.ofGroup g), n.kind = .field ∧ n.label = f ∧ n.id = fieldNode t f ∧
      n.parent = some (tableNode t) := by
  obtain ⟨u, hu, rfl, x, hx, rfl⟩ := h
  have hmem : Schema.Table.of u ∈ (Schema.ofGroup g).tables := List.mem_map_of_mem hu
  have hfield : Schema.Field.of x ∈ (Schema.Table.of u).fields := List.mem_map_of_mem hx
  obtain ⟨n, hn, hkind, hid, hlabel, hparent⟩ := exists_row l theme hmem hfield
  exact ⟨n, hn, hkind, hlabel, hid, hparent⟩

/-- The id at an end of an edge. -/
theorem attaches_endNode (l : Layout) (theme : String) (g : Document.SchemaGroup)
    (e : Document.Endpoint) :
    e.Attaches g.tables (nodes l theme (.ofGroup g)) (endNode (.of g.tables e)) where
  container t ht hnil := by
    rw [endNode_of_nil (show (Schema.Endpoint.of g.tables e).fieldNames = [] from hnil),
      Schema.Endpoint.of, ht.ownName_eq]
    exact exists_container_of_means l theme ht
  field t f more ht hcons hf := by
    rw [endNode_of_cons (show (Schema.Endpoint.of g.tables e).fieldNames = f :: more from hcons),
      Schema.Endpoint.of, ht.ownName_eq]
    obtain ⟨n, hn, hkind, hlabel, hrow, hparent⟩ := exists_row_of_mem l theme hf
    obtain ⟨c, hc, hckind, hclabel, hcid⟩ := exists_container_of_means l theme ht
    exact ⟨n, hn, hkind, hlabel, hrow, c, hc, hckind, hclabel, hcid ▸ hparent⟩
  unknown h := by
    rw [Schema.Endpoint.of, Schema.ownName_of_not_means h, Schema.Endpoint.written]

/-- The edge of a reference draws it: both ends are attached where their names mean. -/
theorem draws_edge (l : Layout) (theme : String) (g : Document.SchemaGroup)
    (r : Document.Reference) :
    Edge.Draws g.tables (nodes l theme (.ofGroup g)) r (edge (.of g.tables r)) where
  startLabel := rfl
  endLabel := rfl
  source := attaches_endNode l theme g r.source
  target := attaches_endNode l theme g r.target

/-- There is an edge for each reference, in order. -/
theorem edges_ofGroup (a : Appearance) (g : Document.SchemaGroup) :
    (Compilation.ofSchema a (.ofGroup g)).edges =
      g.references.map fun r => edge (.of g.tables r) := by
  rw [Compilation.ofSchema, edges, Schema.ofGroup, List.map_map]
  rfl

/-- **Every reference of the schema that is shown is drawn by one edge, in order**: between the nodes
of its tables wherever its names mean tables.  The names are resolved once and for all: doing it
again changes nothing. -/
theorem draws_edges (a : Appearance) (d : Document) :
    List.Forall₂ (Edge.Draws d.shown.tables (Compilation.ofSchema a (.ofDocument (some d))).nodes)
        d.shown.references (Compilation.ofSchema a (.ofDocument (some d))).edges ∧
      (Schema.ofDocument (some d)).references.map (·.resolve d.shown.tables) =
        (Schema.ofDocument (some d)).references := by
  rw [Schema.ofDocument_eq]
  refine ⟨?_, Schema.map_resolve_references d.shown⟩
  rw [edges_ofGroup, List.forall₂_map_right_iff, List.forall₂_same]
  exact fun r _ => draws_edge a.layout a.theme d.shown r

end Diagram

end SchemaDiagram
