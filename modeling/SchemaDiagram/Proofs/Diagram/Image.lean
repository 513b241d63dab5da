import Mathlib.Data.List.Forall2
import SchemaDiagram.Proofs.Diagram.Nodes

/-!
# SchemaDiagram.Proofs.Diagram.Image

The nodes of a schema as an image of its tables.

```
container header row … row   container header row … row   …
       first table                  second table
```

1. The nodes are one block for each table, in order (`forall₂_isBlock`): the container, the header
   and a row for each field, each with all that it shows of the table (`facesOf`).
2. A block ends where the next container stands, so the tables can be read off what the nodes show
   (`tablesOf`).  This does not look at ids, which can be the same in several blocks.
-/

namespace SchemaDiagram

/-! ## What nodes show -/

/-- What a node shows, and the container it belongs to. -/
structure Face where
  kind : NodeKind
  parent : Option String := none
  label : String
  typeLabel : Option String := none
  note : Option String := none
  headerColor : Option String := none
  deriving DecidableEq, Repr

/-- A node without its own id, its measures and its appearance. -/
def Node.face (n : Node) : Face :=
  ⟨n.kind, n.parent, n.label, n.typeLabel, n.note, n.headerColor⟩

/-- The field that a row shows. -/
def Face.field? (n : Face) : Option Schema.Field :=
  if n.kind = .field then n.typeLabel.map fun type => ⟨n.label, type, n.note⟩ else none

namespace Diagram

/-- What a row shows of a field in a container. -/
def rowFace (container : String) (f : Schema.Field) : Face where
  kind := .field
  parent := some container
  label := f.name
  typeLabel := some f.typeLabel
  note := f.note

/-- What a header shows of a table in its container. -/
def headerFace (container : String) (t : Schema.Table) : Face where
  kind := .header
  parent := some container
  label := t.name
  headerColor := t.headerColor

/-- What the nodes of a table show in its container: the container itself, the header, the rows. -/
def facesOf (container : String) (t : Schema.Table) : List Face :=
  { kind := .container, label := t.name } :: headerFace container t ::
    t.fields.map (rowFace container)

/-! ## Blocks -/

/-- Nodes are the block of a table, in the container that stands first. -/
def IsBlock (t : Schema.Table) (ns : List Node) : Prop :=
  ∃ c ∈ ns.head?, ns.map (·.face) = facesOf c.id t

/-- The nodes of a table are its block: each row and the header belong to the container by its
id. -/
theorem isBlock_tableNodes (l : Layout) (theme : String) (index : Nat) (t : Schema.Table) :
    IsBlock t (tableNodes l theme index t) := by
  refine ⟨container l theme index t, rfl, ?_⟩
  have hrows : (t.fields.mapIdx (row l theme t)).map (·.face) =
      t.fields.map (rowFace (tableNode t.name)) :=
    map_mapIdx (fun i f => (rfl : (row l theme t i f).face = rowFace (tableNode t.name) f)) t.fields
  rw [tableNodes, List.map_cons, List.map_cons, hrows]
  rfl

/-- The nodes of the tables are a block each. -/
theorem forall₂_isBlock (l : Layout) (theme : String) (ts : List Schema.Table) :
    List.Forall₂ IsBlock ts (ts.mapIdx (tableNodes l theme)) := by
  refine List.forall₂_iff_get.2 ⟨by simp, fun i _ _ => ?_⟩
  simpa using isBlock_tableNodes l theme i ts[i]

/-- The kinds of the nodes of a table. -/
def kindsOf (t : Schema.Table) : List NodeKind :=
  .container :: .header :: List.replicate t.fields.length .field

/-- The kinds of nodes in blocks are those of their tables, one table after the other. -/
theorem map_kind_of_forall₂ {ts : List Schema.Table} {blocks : List (List Node)}
    (h : List.Forall₂ IsBlock ts blocks) : blocks.flatten.map (·.kind) = ts.flatMap kindsOf := by
  induction h with
  | nil => rfl
  | @cons t ns ts blocks hblock _ ih =>
    obtain ⟨c, -, hfaces⟩ := hblock
    have hkinds : ns.map (·.kind) = (facesOf c.id t).map (·.kind) := by
      rw [← hfaces, List.map_map]
      rfl
    have hrows : (t.fields.map (rowFace c.id)).map (·.kind) =
        List.replicate t.fields.length .field := by
      rw [List.map_map]
      exact List.map_const ..
    rw [List.flatten_cons, List.map_append, ih, List.flatMap_cons, hkinds, facesOf, List.map_cons,
      List.map_cons, hrows]
    rfl

/-! ## Reading the tables back -/

/-- The table of a container and of the nodes behind it. -/
def tableOf (container : Face) (behind : List Face) : Schema.Table where
  name := container.label
  headerColor := (behind.find? (·.kind = .header)).bind (·.headerColor)
  fields := behind.filterMap (·.field?)

/-- The nodes before the first container, and the tables of the containers from there on. -/
def parted : List Face → List Face × List Schema.Table
  | [] => ([], [])
  | n :: ns =>
    if n.kind = .container then ([], tableOf n (parted ns).1 :: (parted ns).2)
    else (n :: (parted ns).1, (parted ns).2)

/-- The tables that nodes show. -/
def tablesOf (ns : List Face) : List Schema.Table := (parted ns).2

/-- Up to the next container all nodes belong to the one before. -/
theorem parted_append {rows : List Face} (h : ∀ n ∈ rows, n.kind ≠ .container) (ns : List Face) :
    parted (rows ++ ns) = (rows ++ (parted ns).1, (parted ns).2) := by
  induction rows with
  | nil => rfl
  | cons n rows ih =>
    rw [List.cons_append, parted, if_neg (h n List.mem_cons_self),
      ih fun m hm => h m (List.mem_cons_of_mem n hm)]
    rfl

/-- The fields are read back from their rows. -/
theorem filterMap_rowFace (container : String) (fs : List Schema.Field) :
    (fs.map (rowFace container)).filterMap (·.field?) = fs := by
  rw [List.filterMap_map]
  exact List.filterMap_some

/-- What a table's nodes show is read back, up to the container behind them. -/
theorem parted_facesOf (container : String) (t : Schema.Table) {ns : List Face}
    (h : (parted ns).1 = []) : parted (facesOf container t ++ ns) = ([], t :: (parted ns).2) := by
  have hrows : ∀ n ∈ headerFace container t :: t.fields.map (rowFace container),
      n.kind ≠ .container := by
    simp only [List.mem_cons, List.mem_map]
    rintro _ (rfl | ⟨f, -, rfl⟩) <;> exact NodeKind.noConfusion
  rw [facesOf, List.cons_append, parted, if_pos rfl, parted_append hrows, h, List.append_nil,
    tableOf, List.filterMap_cons_none rfl, filterMap_rowFace]
  rfl

/-- Blocks are read back as their tables, whatever their ids are. -/
theorem parted_of_forall₂ {ts : List Schema.Table} {blocks : List (List Node)}
    (h : List.Forall₂ IsBlock ts blocks) :
    parted (blocks.flatten.map (·.face)) = ([], ts) := by
  induction h with
  | nil => rfl
  | cons hblock _ ih =>
    obtain ⟨c, -, hfaces⟩ := hblock
    rw [List.flatten_cons, List.map_append, hfaces, parted_facesOf _ _ (congrArg Prod.fst ih), ih]

/-! ## Numbers of nodes -/

/-- Numbers of fields are added up to the number of all fields. -/
theorem foldl_fieldCount (ts : List Schema.Table) (n : Nat) :
    ts.foldl (fun n t => n + t.fields.length) n = n + (ts.flatMap (·.fields)).length := by
  induction ts generalizing n with
  | nil => rfl
  | cons t ts ih =>
    rw [List.foldl_cons, ih, List.flatMap_cons, List.length_append, Nat.add_assoc]

/-- The number of fields of a schema is that of its tables together. -/
theorem fieldCount_eq (s : Schema) : s.fieldCount = (s.tables.flatMap (·.fields)).length := by
  rw [Schema.fieldCount, foldl_fieldCount, Nat.zero_add]

/-- There is a container and a header for each table, and a row for each field. -/
theorem count_flatMap_kindsOf (ts : List Schema.Table) :
    (ts.flatMap kindsOf).count .container = ts.length ∧
      (ts.flatMap kindsOf).count .header = ts.length ∧
      (ts.flatMap kindsOf).count .field = (ts.flatMap (·.fields)).length := by
  induction ts with
  | nil => exact ⟨rfl, rfl, rfl⟩
  | cons t ts ih =>
    obtain ⟨hcontainer, hheader, hfield⟩ := ih
    rw [List.flatMap_cons, List.flatMap_cons, List.length_append, List.length_cons]
    simp [kindsOf, List.count_replicate, hcontainer, hheader, hfield]

/-! ## The theorem -/

/-- **The nodes are a lossless image of the tables.**  They are one block for each table, in order,
in which header and rows belong to the container in front; there is one container and one header
for each table and one row for each field; and what the nodes show gives the tables back. -/
theorem nodes_image (l : Layout) (theme : String) (s : Schema) :
    (∃ blocks, nodes l theme s = blocks.flatten ∧ List.Forall₂ IsBlock s.tables blocks) ∧
      ((nodes l theme s).map (·.kind)).count .container = s.tables.length ∧
      ((nodes l theme s).map (·.kind)).count .header = s.tables.length ∧
      ((nodes l theme s).map (·.kind)).count .field = s.fieldCount ∧
      tablesOf ((nodes l theme s).map (·.face)) = s.tables := by
  have hblocks := forall₂_isBlock l theme s.tables
  have hkinds : (nodes l theme s).map (·.kind) = s.tables.flatMap kindsOf :=
    map_kind_of_forall₂ hblocks
  have htables : tablesOf ((nodes l theme s).map (·.face)) = s.tables :=
    congrArg Prod.snd (parted_of_forall₂ hblocks)
  rw [hkinds, fieldCount_eq]
  obtain ⟨hcontainer, hheader, hfield⟩ := count_flatMap_kindsOf s.tables
  exact ⟨⟨_, rfl, hblocks⟩, hcontainer, hheader, hfield, htables⟩

end Diagram

end SchemaDiagram
