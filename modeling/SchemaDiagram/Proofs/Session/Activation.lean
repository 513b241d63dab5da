import SchemaDiagram.Proofs.Compilation.Outcome
import SchemaDiagram.Proofs.Session.Selection

/-!
# SchemaDiagram.Proofs.Session.Activation

Which table an id selects.

An id is the name of a node or that of a table, and one text can be both.  It is read as a node, and
as a table only where no table has this node and one has this name:

| id              | tables                | selects   |
|-----------------|-----------------------|-----------|
| `xparent`       | `x`, `xparent`        | `x`       |
| `xparent`       | `xparent`             | `xparent` |
| `xparentparent` | `x`, `xparent`        | `xparent` |
| `parent`        | `parent`              | `parent`  |

So every node selects its own table, whatever other tables there are and however its fields are
named; the name of a table selects it unless it is the node of another one (`select_of_plain`).
-/

namespace SchemaDiagram

/-! ## Ids without a point -/

namespace Element

/-- What an ending is taken off had that ending. -/
theorem eq_append_of_withoutSuffix? {ending text rest : List Char}
    (h : withoutSuffix? ending text = some rest) : text = rest ++ ending := by
  rw [withoutSuffix?, Option.ite_none_right_eq_some, Bool.and_eq_true,
    List.isSuffixOf_iff_suffix] at h
  obtain ⟨⟨⟨before, rfl⟩, -⟩, hrest⟩ := h
  simpa using hrest

/-- A name without a point is the node of a table that it is read back to, or is read as it
stands. -/
theorem ofNode_of_not_mem {id : String} (h : '.' ∉ id.toList) :
    (∃ t, id = tableNode t ∧ ofNode id = .table t) ∨ ofNode id = .table id := by
  have htext : ofText id = .table id := by
    rw [ofText, List.dropWhile_eq_nil_iff.2 (Text.bne_of_not_mem h)]
  rw [ofNode, if_neg (by simpa using h)]
  cases hsuffix : withoutSuffix? tableSuffix.toList id.toList with
  | none => exact .inr htext
  | some name =>
    refine .inl ⟨String.ofList name, ?_, rfl⟩
    rw [← String.toList_inj, eq_append_of_withoutSuffix? hsuffix, tableNode]
    simp

end Element

/-! ## Selecting -/

namespace Session

variable {s : Session} {id t : String}

/-- An id selects the table that it is read back to. -/
theorem select_of_tableName (h : (s.element id).tableName = t) :
    s.select id = { s with selected := some t } := by
  rw [select, h]

/-- A node that is read back to a table that is known selects it. -/
theorem select_node (h : (Element.ofNode id).tableName = t) (ht : t ∈ s.tableNames) :
    s.select id = { s with selected := some t } := by
  subst h
  exact select_of_tableName (tableName_element ht)

/-- The name of a table that is known selects it, if no table that is known has it for its node. -/
theorem select_tableName (ht : t ∈ s.tableNames) (hpoint : '.' ∉ t.toList)
    (hnode : ∀ u ∈ s.tableNames, t ≠ tableNode u) : s.select t = { s with selected := some t } := by
  rcases Element.ofNode_of_not_mem hpoint with ⟨u, hu, hread⟩ | hread
  · have hunknown : u ∉ s.tableNames := fun hmem => hnode u hmem hu
    have helement : s.element t = .table t := by
      simp [element, hread, hunknown, ht]
    exact select_of_tableName (by rw [helement]; rfl)
  · exact select_node (by rw [hread]; rfl) ht

end Session

/-! ## Documents -/

/-- A node that the diagram of a document has for one of its tables. -/
def Emits (a : Appearance) (source : String) (t : Schema.Table) (n : Node) : Prop :=
  ∃ s i, Schema.ofSource source = .ok s ∧ s.tables[i]? = some t ∧
    n ∈ Diagram.tableNodes a.layout a.theme i t

namespace Compilation

variable {a : Appearance} {source : String} {n : Node} {t : String}

/-- What has nodes is the diagram of a schema. -/
theorem exists_ofSchema (h : n ∈ (ofSource a source).nodes) :
    ∃ s, Schema.ofSource source = .ok s ∧ ofSource a source = ofSchema a s := by
  cases hs : Schema.ofSource source with
  | error e =>
    rw [ofSource_of_error a hs] at h
    contradiction
  | ok s => exact ⟨s, rfl, ofSource_of_ok a hs⟩

/-- Every node is there for a table. -/
theorem exists_emits (h : n ∈ (ofSource a source).nodes) : ∃ t, Emits a source t n := by
  obtain ⟨s, hs, heq⟩ := exists_ofSchema h
  rw [heq] at h
  obtain ⟨ns, hns, hn⟩ := List.mem_flatten.1 h
  obtain ⟨i, hi, rfl⟩ := List.mem_mapIdx.1 hns
  exact ⟨s.tables[i], s, i, hs, List.getElem?_eq_getElem hi, hn⟩

/-- A node of a table that has a plain name is read back to it. -/
theorem tableName_ofNode_of_emits {t : Schema.Table} (hplain : HasPlainTables source)
    (h : Emits a source t n) :
    (Element.ofNode n.id).tableName = t.name ∧ t.name ∈ (ofSource a source).tableNames := by
  obtain ⟨s, i, hs, ht, hn⟩ := h
  have hmem : t ∈ s.tables := List.mem_of_getElem? ht
  have hname := isReadable_of_isIdentifier (hplain s hs t hmem)
  refine ⟨(Diagram.mem_tableNodes hn).1.tableName_ofNode hname, ?_⟩
  rw [ofSource_of_ok a hs, tableNames_ofSchema]
  exact List.mem_map_of_mem hmem

/-- Every table that is known of such a document has a readable name. -/
theorem isReadable_of_mem_tableNames (hplain : HasPlainTables source)
    (h : t ∈ (ofSource a source).tableNames) : IsReadable t := by
  obtain ⟨n, hn, -⟩ := mem_tableNames.1 h
  obtain ⟨s, hs, heq⟩ := exists_ofSchema hn
  rw [heq, tableNames_ofSchema] at h
  obtain ⟨table, hmem, rfl⟩ := List.mem_map.1 h
  exact isReadable_of_isIdentifier (hplain s hs table hmem)

end Compilation

namespace Session

/-- **Every id selects the table it belongs to.**  In a session that knows the tables of a document
with plain names, a node selects the table that it is there for, however the fields are named; and
the name of a table selects this table, unless it is also the node of another one, which it then
selects.  Nothing else in the session changes. -/
theorem select_of_plain {a : Appearance} {source : String} {s : Session}
    (hplain : HasPlainTables source)
    (hknown : s.tableNames = (Compilation.ofSource a source).tableNames) :
    (∀ n ∈ (Compilation.ofSource a source).nodes, (∃ t, Emits a source t n) ∧
      ∀ t, Emits a source t n → s.select n.id = { s with selected := some t.name }) ∧
    ∀ t ∈ (Compilation.ofSource a source).tableNames,
      (∀ u ∈ (Compilation.ofSource a source).tableNames, t = tableNode u →
        s.select t = { s with selected := some u }) ∧
      ((∀ u ∈ (Compilation.ofSource a source).tableNames, t ≠ tableNode u) →
        s.select t = { s with selected := some t }) := by
  constructor
  · intro n hn
    refine ⟨Compilation.exists_emits hn, fun t ht => ?_⟩
    obtain ⟨hread, hmem⟩ := Compilation.tableName_ofNode_of_emits hplain ht
    exact select_node hread (hknown ▸ hmem)
  · intro t ht
    constructor
    · rintro u hu rfl
      obtain ⟨hpoint, hne⟩ := Compilation.isReadable_of_mem_tableNames hplain hu
      exact select_node (by rw [Element.ofNode_tableNode hpoint hne]; rfl) (hknown ▸ hu)
    · intro hnode
      have hpoint := (Compilation.isReadable_of_mem_tableNames hplain ht).1
      exact select_tableName (hknown ▸ ht) hpoint (hknown ▸ hnode)

/-- A document with tables that are nodes of others, and a table that is called as the ending of a
node. -/
def nested : String :=
  "Table x \x7b\n  header int\n  \"a.b\" int\n\x7d\nTable xparent \x7b\n  id int\n\x7d\n" ++
    "Table xparentparent \x7b\n  id int\n\x7d\nTable parent \x7b\n  id int\n\x7d\n"

/-- The names of its tables are identifiers. -/
theorem hasPlainTables_nested : HasPlainTables nested := by
  intro s hs t ht
  have hnames : (Schema.ofSource nested).toOption.map (·.tableNames) =
      some ["x", "xparent", "xparentparent", "parent"] := by decide +kernel
  have hmem : t.name ∈ ["x", "xparent", "xparentparent", "parent"] := by
    rw [hs] at hnames
    exact Option.some.inj hnames ▸ List.mem_map_of_mem ht
  have hword : ∀ name ∈ ["x", "xparent", "xparentparent", "parent"],
      name.toList.head?.any Lexeme.isNameStart = true ∧
        name.toList.tail.all Lexeme.isNameChar = true := by decide +kernel
  obtain ⟨hstart, hrest⟩ := hword t.name hmem
  cases hname : t.name.toList with
  | nil =>
    rw [hname] at hstart
    contradiction
  | cons c rest =>
    rw [hname] at hstart hrest
    exact ⟨[], c, rest, rfl, by simp, hstart, List.all_eq_true.1 hrest⟩

/-- There every node selects its own table, and a name that is also a node selects that one's
table. -/
theorem select_nested :
    let s := ({} : Session).adopt (.ofSource {} nested)
    (∀ n ∈ (Compilation.ofSource {} nested).nodes, ∀ t, Emits {} nested t n →
      (s.select n.id).selected = some t.name) ∧
    (s.select "xparentparent").selected = some "xparent" ∧
    (s.select "parent").selected = some "parent" := by
  intro s
  have hnames : (Compilation.ofSource {} nested).tableNames =
      ["x", "xparent", "xparentparent", "parent"] := by decide +kernel
  obtain ⟨hnodes, htables⟩ := select_of_plain hasPlainTables_nested (tableNames_adopt {} _)
  refine ⟨fun n hn t ht => ?_, ?_, ?_⟩
  · rw [(hnodes n hn).2 t ht]
  · rw [(htables "xparentparent" (by simp [hnames])).1 "xparent" (by simp [hnames]) (by decide)]
  · rw [(htables "parent" (by simp [hnames])).2 (by rw [hnames]; decide)]

end Session

end SchemaDiagram
