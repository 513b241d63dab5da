import SchemaDiagram.Proofs.Compilation.Outcome
import SchemaDiagram.Proofs.Diagram.Distinct
import SchemaDiagram.Proofs.Diagram.Edges
import SchemaDiagram.Proofs.Document.Concat

/-!
# SchemaDiagram.Proofs.Diagram.Elsewhere

Where an edge leads whose reference is written with another schema.

A diagram shows the tables of the default schema, and the references whose source is there.  The
target of such a reference may be written with another schema.  Its id is put together from the bare
names all the same, and edges are not checked against the nodes, so that it can be the id of a node
that is shown.  `Receives` says when that is so:

| the table meant by the end is called | and the end names | so that it is at |
|--------------------------------------|-------------------|------------------|
| `t`, like a table that is shown      | no field          | the container of `t` |
| `t`, like a table that is shown      | the field `f`     | the header or a row of `t` |
| `t`, and `t.x` is shown              | a field `xparent`, `x.header` or `x.f` | a node of `t.x` |
| `t.x`, and `t` is shown              | anything          | a row of `t` called like the end under `x` |

The last two need a point in the name of a table.  So an end elsewhere is at no node if its table is
called by no name or alias that is shown, and there are no such points (`strays_edges`).
-/

namespace SchemaDiagram

open Schema (Means)

/-! ## Ids of ends among the ids of a table -/

namespace Diagram

/-- No end of a reference has the bare name of the header for its id. -/
theorem headerName_ne_endNode (e : Schema.Endpoint) : headerName ≠ endNode e := by
  unfold endNode
  split
  · exact headerName_ne_tableNode e.tableName
  · exact headerName_ne_fieldNode e.tableName _

/-- An end at a longer name, seen from the shorter one. -/
theorem endNode_of_eq_fieldNode {e : Schema.Endpoint} {name x : String}
    (h : e.tableName = fieldNode name x) :
    endNode e = fieldNode name (endNode { e with tableName := x }) := by
  cases hfields : e.fieldNames with
  | nil => simp only [endNode, hfields, h, tableNode_fieldNode]
  | cons f more => simp only [endNode, hfields, h, fieldNode_fieldNode]

end Diagram

namespace Schema.Table

/-- How a table that is shown comes to have the node for an end of a reference. -/
inductive Receives (t : Table) (e : Endpoint) : Prop
  /-- The end is at the table. -/
  | container : e.tableName = t.name → e.fieldNames = [] → Receives t e
  /-- The end is at the header or a field of the table. -/
  | row (f : String) (more : List String) :
      e.tableName = t.name → e.fieldNames = f :: more → f ∈ t.rowNames → Receives t e
  /-- The name of the table goes on from that at the end, and the field there from its rest. -/
  | beyond (x f : String) (more : List String) :
      t.name = fieldNode e.tableName x → e.fieldNames = f :: more → f ∈ t.idsUnder x → Receives t e
  /-- The name at the end goes on from that of the table, and a field is called like the rest. -/
  | within (x : String) : e.tableName = fieldNode t.name x →
      Diagram.endNode { e with tableName := x } ∈ t.fields.map (·.name) → Receives t e

variable {t : Table} {e : Endpoint} {f x : String}

/-- A row is the header or a field. -/
theorem mem_map_name_of_mem_rowNames (h : f ∈ t.rowNames) (hne : headerName ≠ f) :
    f ∈ t.fields.map (·.name) := by
  rw [rowNames, List.mem_cons] at h
  exact h.resolve_left fun hf => hne hf.symm

/-- A row called like the rest of the name at the end is that of a field. -/
theorem receives_of_within (hname : e.tableName = fieldNode t.name x)
    (hrow : Diagram.endNode { e with tableName := x } ∈ t.rowNames) : t.Receives e :=
  .within x hname (mem_map_name_of_mem_rowNames hrow (Diagram.headerName_ne_endNode _))

/-- A node for the end can come from a container, a row, or a name that runs on behind a point: the
cases are those of two ids that agree. -/
theorem receives_of_mem_idsUnder (h : Diagram.endNode e ∈ t.idsUnder t.name) : t.Receives e := by
  rw [mem_idsUnder] at h
  cases hfields : e.fieldNames with
  | nil =>
    rw [Diagram.endNode_of_nil hfields] at h
    cases h with
    | inl htable => exact .container (tableNode_inj.1 htable) hfields
    | inr hrow =>
      obtain ⟨g, hg, hrow⟩ := hrow
      obtain ⟨x, hname, rfl⟩ := tableNode_eq_fieldNode hrow.symm
      have hrest : Diagram.endNode { e with tableName := x } = tableNode x :=
        Diagram.endNode_of_nil hfields
      exact receives_of_within hname (hrest ▸ hg)
  | cons f more =>
    rw [Diagram.endNode_of_cons hfields] at h
    cases h with
    | inl htable =>
      obtain ⟨x, hname, hf⟩ := tableNode_eq_fieldNode htable.symm
      exact .beyond x f more hname hfields (mem_idsUnder.2 (.inl hf))
    | inr hrow =>
      obtain ⟨g, hg, hrow⟩ := hrow
      obtain ⟨hname, rfl⟩ | ⟨x, hname, rfl⟩ | ⟨x, hname, rfl⟩ := fieldNode_eq_fieldNode hrow
      · exact .row g more hname.symm hfields hg
      · have hrest : Diagram.endNode { e with tableName := x } = fieldNode x f :=
          Diagram.endNode_of_cons hfields
        exact receives_of_within hname (hrest ▸ hg)
      · exact .beyond x _ more hname hfields (mem_idsUnder.2 (.inr ⟨g, hg, rfl⟩))

/-- A table that receives an end has the node for it. -/
theorem Receives.mem_idsUnder (h : t.Receives e) : Diagram.endNode e ∈ t.idsUnder t.name := by
  cases h with
  | container hname hnil =>
    rw [Diagram.endNode_of_nil hnil, hname]
    exact Table.mem_idsUnder.2 (.inl rfl)
  | row f more hname hcons hrow =>
    rw [Diagram.endNode_of_cons hcons, hname]
    exact Table.mem_idsUnder.2 (.inr ⟨f, hrow, rfl⟩)
  | beyond x f more hname hcons hid =>
    rw [Diagram.endNode_of_cons hcons, hname, idsUnder_fieldNode]
    exact List.mem_map_of_mem hid
  | within x hname hrow =>
    rw [Diagram.endNode_of_eq_fieldNode hname]
    exact Table.mem_idsUnder.2 (.inr ⟨_, List.mem_cons_of_mem _ hrow, rfl⟩)

/-- Without points, only a table of the same name has the node for an end. -/
theorem not_receives (hne : e.tableName ≠ t.name) (he : '.' ∉ e.tableName.toList)
    (ht : '.' ∉ t.name.toList) : ¬ t.Receives e := by
  have hpoint : ∀ name x, '.' ∈ (fieldNode name x).toList := fun name x => by
    simp [Element.toList_fieldNode]
  intro h
  cases h with
  | container hname _ => exact hne hname
  | row f more hname _ _ => exact hne hname
  | beyond x f more hname _ _ => exact ht (hname ▸ hpoint e.tableName x)
  | within x hname _ => exact he (hname ▸ hpoint t.name x)

end Schema.Table

/-- The id for an end is that of a node exactly if a table receives the end. -/
theorem Diagram.endNode_mem_ids_iff (l : Layout) (theme : String) (s : Schema)
    (e : Schema.Endpoint) :
    endNode e ∈ (nodes l theme s).map (·.id) ↔ ∃ t ∈ s.tables, t.Receives e := by
  rw [map_id_nodes, List.mem_flatMap]
  refine exists_congr fun t => and_congr_right fun _ => ?_
  exact ⟨Schema.Table.receives_of_mem_idsUnder, Schema.Table.Receives.mem_idsUnder⟩

/-! ## The schema that is shown -/

namespace Document

/-- An end that is written with a schema other than the default one. -/
def Endpoint.IsElsewhere (e : Endpoint) : Prop :=
  ∃ schema, e.schemaName = some schema ∧ schema ≠ defaultSchema

/-- The first schema is the default one, whatever is declared. -/
theorem shown_ofDeclarations (d : Declarations) :
    (ofDeclarations d).shown = { d.inSchema defaultSchema with name := defaultSchema } := by
  rw [shown, ofDeclarations, Declarations.groups, Declarations.schemaNames, List.eraseDups_cons]
  rfl

/-- References are shown in the schema of their source. -/
theorem not_isElsewhere_source (d : Declarations) {r : Reference}
    (h : r ∈ (ofDeclarations d).shown.references) : ¬ r.source.IsElsewhere := by
  rw [shown_ofDeclarations] at h
  have hsame : schemaOf r.source.schemaName = defaultSchema := by
    simpa using (List.mem_filter.1 h).2
  rintro ⟨schema, hschema, hne⟩
  rw [hschema] at hsame
  exact hne hsame

end Document

/-- A text that can be read is compiled from its document. -/
theorem Compilation.ofSource_of_document {source : String} {d : Document} (a : Appearance)
    (h : Document.ofSource source = .ok d) :
    ofSource a source = ofSchema a (.ofDocument (some d)) := by
  refine ofSource_of_ok a ?_
  rw [Schema.ofSource, h]
  rfl

/-! ## Ends elsewhere -/

/-- An edge may stray at the end of a reference that is written with another schema, but only at
the target, and only to where a table receives it. -/
structure Edge.Strays (tables : List Document.Table) (nodes : List Node) (r : Document.Reference)
    (e : Edge) : Prop where
  source : ¬ r.source.IsElsewhere
  /-- The id is that of a node exactly if a table receives the end under its bare names. -/
  target : r.target.IsElsewhere → (e.target ∈ nodes.map (·.id) ↔
    ∃ t ∈ tables, (Schema.Table.of t).Receives (.of tables r.target))
  /-- It is that of no node if the end means no table, and no name runs on behind a point. -/
  unknown : r.target.IsElsewhere → (∀ t, ¬ Means tables r.target.tableName t) →
    '.' ∉ r.target.tableName.toList → (∀ t ∈ tables, '.' ∉ t.name.toList) →
    e.target ∉ nodes.map (·.id)

namespace Diagram

/-- The edge of a reference leads to a node exactly if a table of the group receives its target. -/
theorem target_mem_ids_iff (l : Layout) (theme : String) (g : Document.SchemaGroup)
    (r : Document.Reference) :
    (edge (.of g.tables r)).target ∈ (nodes l theme (.ofGroup g)).map (·.id) ↔
      ∃ t ∈ g.tables, (Schema.Table.of t).Receives (.of g.tables r.target) := by
  have htables : (Schema.ofGroup g).tables = g.tables.map .of := rfl
  change endNode (.of g.tables r.target) ∈ (nodes l theme (.ofGroup g)).map (·.id) ↔ _
  rw [endNode_mem_ids_iff, htables]
  simp only [List.mem_map, exists_exists_and_eq_and]

/-- An edge strays at its target only, if the source of its reference is in the default schema. -/
theorem strays_edge (l : Layout) (theme : String) (g : Document.SchemaGroup)
    {r : Document.Reference} (h : ¬ r.source.IsElsewhere) :
    Edge.Strays g.tables (nodes l theme (.ofGroup g)) r (edge (.of g.tables r)) where
  source := h
  target _ := target_mem_ids_iff l theme g r
  unknown _ hunknown hend htables hid := by
    obtain ⟨t, ht, hreceives⟩ := (target_mem_ids_iff l theme g r).1 hid
    have hsame : Schema.ownName g.tables r.target.tableName = r.target.tableName :=
      Schema.ownName_of_not_means hunknown
    rw [Schema.Endpoint.of, hsame] at hreceives
    refine absurd hreceives (Schema.Table.not_receives ?_ hend (htables t ht))
    exact fun hname => hunknown _ (.own t ht hname.symm)

end Diagram

namespace Compilation

/-- **Only the target of a reference can be in another schema, and its edge then leads to a node that
is shown exactly if a table receives the bare names**: never if they mean no table, unless the name
of a table runs on behind a point. -/
theorem strays_edges (a : Appearance) {source : String} {d : Document}
    (h : Document.ofSource source = .ok d) :
    d.shown.name = Document.defaultSchema ∧
      List.Forall₂ (Edge.Strays d.shown.tables (ofSource a source).nodes) d.shown.references
        (ofSource a source).edges := by
  rw [ofSource_of_document a h]
  obtain ⟨declared, -, rfl⟩ := Document.exists_declares h
  refine ⟨by rw [Document.shown_ofDeclarations], ?_⟩
  rw [Schema.ofDocument_eq, Diagram.edges_ofGroup, List.forall₂_map_right_iff, List.forall₂_same]
  intro r hr
  exact Diagram.strays_edge a.layout a.theme _ (Document.not_isElsewhere_source declared hr)

/-- A text with two references into the schema `auth`, which has no tables. -/
def crossing : String :=
  "Table users \x7b\n  boss int [ref: > auth.users.id]\n  id int [ref: > auth.logins.id]\n\x7d"

/-- Both references of that text are read as leading into `auth`. -/
theorem exists_document_crossing : ∃ d, Document.ofSource crossing = .ok d ∧
    d.shown.references.map (·.target.schemaName) = [some "auth", some "auth"] := by
  have hschemas : (Document.ofSource crossing).toOption.map
      (fun d => d.shown.references.map (·.target.schemaName)) =
        some [some "auth", some "auth"] := by decide +kernel
  cases hd : Document.ofSource crossing with
  | error e => simp [hd, Except.toOption] at hschemas
  | ok d => exact ⟨d, rfl, by simpa [hd, Except.toOption] using hschemas⟩

/-- Edges that lead into a schema which is not shown. -/
theorem strays_crossing : ∃ d, Document.ofSource crossing = .ok d ∧
    d.shown.references.map (·.target.schemaName) = [some "auth", some "auth"] ∧
    d.shown.name = Document.defaultSchema ∧
    List.Forall₂ (Edge.Strays d.shown.tables (ofSource {} crossing).nodes) d.shown.references
      (ofSource {} crossing).edges := by
  obtain ⟨d, hd, hschemas⟩ := exists_document_crossing
  exact ⟨d, hd, hschemas, strays_edges {} hd⟩

/-- The first of these leads to the table `users` of the default schema. -/
theorem not_apart_crossing : ¬ ∀ (a : Appearance) (source : String) (d : Document),
    Document.ofSource source = .ok d →
    List.Forall₂ (fun r e =>
      (r.source.IsElsewhere → e.source ∉ (ofSource a source).nodes.map (·.id)) ∧
      (r.target.IsElsewhere → e.target ∉ (ofSource a source).nodes.map (·.id)))
      d.shown.references (ofSource a source).edges := by
  intro h
  obtain ⟨d, hd, hschemas⟩ := exists_document_crossing
  have hapart := h {} crossing d hd
  have htargets : (ofSource {} crossing).edges.map (·.target) = ["users.id", "logins.id"] := by
    decide +kernel
  have hid : "users.id" ∈ (ofSource {} crossing).nodes.map (·.id) := by decide +kernel
  generalize d.shown.references = references at hapart hschemas
  generalize (ofSource {} crossing).edges = edges at hapart htargets
  cases hapart with
  | nil => simp at hschemas
  | @cons r e _ _ hfirst _ =>
    have hschema : r.target.schemaName = some "auth" := (List.cons.inj hschemas).1
    have htarget : e.target = "users.id" := (List.cons.inj htargets).1
    exact hfirst.2 ⟨"auth", hschema, by decide⟩ (htarget ▸ hid)

end Compilation

end SchemaDiagram
