import SchemaDiagram.Diagram
import SchemaDiagram.Proofs.Text.Blank
import SchemaDiagram.Proofs.Token.Spelling

/-!
# SchemaDiagram.Proofs.Diagram.NodeName

The names of nodes, read back.

The name of a node is put together from the names of a table and a field, and `Element.ofNode` takes
it apart again, at the first point or before the ending `parent`.  What it takes for the table:

| node of      | is named      | and is read back to                                         |
|--------------|---------------|-------------------------------------------------------------|
| a table `t`  | `tparent`     | what stands before the first point of `t`, `t` if it has none |
| a header     | `t.header`    | the same                                                    |
| a field `f`  | `t.f`         | the same, whatever `f` is                                   |

Only the table with an empty name is read otherwise: its node is the bare word `parent`, which is
taken for a name.
-/

namespace SchemaDiagram

/-- What stands before the first point of a text; all of it if there is none. -/
def beforePoint (s : String) : String := String.ofList (s.toList.takeWhile (· != '.'))

/-- A text without a point is all before it. -/
theorem beforePoint_of_not_mem {s : String} (h : '.' ∉ s.toList) : beforePoint s = s := by
  rw [beforePoint, List.takeWhile_eq_self_iff.2 (Text.bne_of_not_mem h), String.ofList_toList]

/-- Before the first point there is none. -/
theorem not_mem_beforePoint (s : String) : '.' ∉ (beforePoint s).toList := by
  rw [beforePoint, String.toList_ofList]
  intro h
  exact absurd (List.mem_takeWhile_imp h) (by simp)

/-- Text behind a point does not count. -/
theorem beforePoint_append_of_mem {s : String} (h : '.' ∈ s.toList) (cs : String) :
    beforePoint (s ++ cs) = beforePoint s := by
  have hne : (s.toList.takeWhile (· != '.')).length ≠ s.toList.length := fun he => by
    have hall := List.takeWhile_eq_self_iff.1 ((List.takeWhile_prefix _).eq_of_length he)
    exact absurd (hall '.' h) (by simp)
  rw [beforePoint, String.toList_append, List.takeWhile_append, if_neg hne, beforePoint]

namespace Element

variable {t : String}

/-! ## Names with a point -/

/-- The node of a field is named by table and field with a point between them. -/
theorem toList_fieldNode (t f : String) :
    (fieldNode t f).toList = t.toList ++ '.' :: f.toList := by
  simp [fieldNode]

/-- Behind a table without a point, the first point is the one that parts table and field. -/
theorem ofText_fieldNode (h : '.' ∉ t.toList) (f : String) :
    ofText (fieldNode t f) = if f = headerName then .header t else .field t f := by
  have hall := Text.bne_of_not_mem h
  have hbefore : (fieldNode t f).toList.takeWhile (· != '.') = t.toList := by
    rw [toList_fieldNode, List.takeWhile_append_of_pos hall]
    simp
  have hafter : (fieldNode t f).toList.dropWhile (· != '.') = '.' :: f.toList := by
    rw [toList_fieldNode, List.dropWhile_append_of_pos hall]
    simp
  rw [ofText, hbefore, hafter]
  simp

/-- A name with a point in it is read as it stands. -/
theorem ofNode_fieldNode (h : '.' ∉ t.toList) (f : String) :
    ofNode (fieldNode t f) = if f = headerName then .header t else .field t f := by
  rw [ofNode, if_pos (by simp [toList_fieldNode]), ofText_fieldNode h]

/-- The node of a header is read back to it. -/
theorem ofNode_headerNode (h : '.' ∉ t.toList) : ofNode (headerNode t) = .header t := by
  rw [headerNode, ofNode_fieldNode h, if_pos rfl]

/-! ## Names without a point -/

/-- The ending of a table's node is taken off, unless nothing stands before it. -/
theorem ofNode_tableNode (h : '.' ∉ t.toList) (hne : t ≠ "") : ofNode (tableNode t) = .table t := by
  have hnode : (tableNode t).toList = t.toList ++ tableSuffix.toList := by simp [tableNode]
  have hpoint : (tableNode t).toList.contains '.' = false := by
    rw [hnode, List.contains_eq_mem, decide_eq_false_iff_not, List.mem_append]
    rintro (hc | hc)
    · exact h hc
    · exact absurd hc (by decide)
  have hpos : 0 < t.toList.length := List.length_pos_iff.2 fun he => hne (by simpa using he)
  have hshort : withoutSuffix? tableSuffix.toList (tableNode t).toList = some t.toList := by
    rw [withoutSuffix?, hnode, if_pos]
    · simp
    · rw [Bool.and_eq_true, List.isSuffixOf_iff_suffix, decide_eq_true_eq, List.length_append]
      exact ⟨List.suffix_append _ _, by omega⟩
  rw [ofNode, hpoint, if_neg Bool.false_ne_true, hshort]
  simp

/-- The bare ending is no node of a table: it is a table's name. -/
theorem ofNode_tableSuffix : ofNode tableSuffix = .table tableSuffix := by decide

/-! ## Tables -/

/-- Text is read back to the table that stands before its first point. -/
theorem tableName_ofText (s : String) : (ofText s).tableName = beforePoint s := by
  unfold ofText
  dsimp only
  split
  · rename_i hnil
    have hall := List.dropWhile_eq_nil_iff.1 hnil
    exact (beforePoint_of_not_mem fun hc => absurd (hall '.' hc) (by simp)).symm
  · split <;> rfl

/-- A name with a point in it is read back to what stands before the first one. -/
theorem tableName_ofNode_of_mem {s : String} (h : '.' ∈ s.toList) :
    (ofNode s).tableName = beforePoint s := by
  rw [ofNode, if_pos (by simpa using h), tableName_ofText]

/-- The parts of a table are read back to what its name has before the first point. -/
theorem tableName_ofNode_fieldNode (t f : String) :
    (ofNode (fieldNode t f)).tableName = beforePoint t := by
  rw [tableName_ofNode_of_mem (by simp [toList_fieldNode])]
  by_cases h : '.' ∈ t.toList
  · rw [fieldNode, String.append_assoc, beforePoint_append_of_mem h]
  · rw [beforePoint, toList_fieldNode, List.takeWhile_append_of_pos (Text.bne_of_not_mem h),
      List.takeWhile_cons_of_neg (by simp), List.append_nil, String.ofList_toList,
      beforePoint_of_not_mem h]

end Element

/-! ## The table of a node -/

/-- The table that a table's node is read back to. -/
def nodeTable (name : String) : String := if name = "" then tableSuffix else beforePoint name

/-- A table's node is read back to the table that `nodeTable` names. -/
theorem tableName_ofNode_tableNode (name : String) :
    (Element.ofNode (tableNode name)).tableName = nodeTable name := by
  unfold nodeTable
  split
  · rename_i he
    subst he
    exact congrArg Element.tableName Element.ofNode_tableSuffix
  · rename_i hne
    by_cases h : '.' ∈ name.toList
    · rw [Element.tableName_ofNode_of_mem (by simp [tableNode, h]), tableNode,
        beforePoint_append_of_mem h]
    · rw [Element.ofNode_tableNode h hne, beforePoint_of_not_mem h]
      rfl

/-- No table that a node is read back to has a point in its name. -/
theorem not_mem_nodeTable (name : String) : '.' ∉ (nodeTable name).toList := by
  unfold nodeTable
  split
  · decide
  · exact not_mem_beforePoint name

/-- The table that the node at one end of a reference is read back to. -/
def endTable (e : Schema.Endpoint) : String :=
  if e.fieldNames = [] then nodeTable e.tableName else beforePoint e.tableName

/-- The node at an end of a reference is read back to the table that `endTable` names. -/
theorem tableName_ofNode_endNode (e : Schema.Endpoint) :
    (Element.ofNode (Diagram.endNode e)).tableName = endTable e := by
  unfold Diagram.endNode endTable
  split
  · rename_i hnil
    rw [if_pos hnil, tableName_ofNode_tableNode]
  · rename_i hcons
    rw [if_neg (by simp [hcons]), Element.tableName_ofNode_fieldNode]

/-- No table that the node at an end is read back to has a point in its name. -/
theorem not_mem_endTable (e : Schema.Endpoint) : '.' ∉ (endTable e).toList := by
  unfold endTable
  split
  · exact not_mem_nodeTable e.tableName
  · exact not_mem_beforePoint e.tableName

/-! ## Names that are read back whole -/

/-- A table whose node is read back to it. -/
def IsReadable (name : String) : Prop := '.' ∉ name.toList ∧ name ≠ ""

/-- A table with a readable name is read back from its node. -/
theorem nodeTable_of_isReadable {name : String} (h : IsReadable name) : nodeTable name = name := by
  rw [nodeTable, if_neg h.2, beforePoint_of_not_mem h.1]

/-- Only a table with a readable name is read back from its node. -/
theorem isReadable_of_nodeTable {name : String} (h : nodeTable name = name) : IsReadable name := by
  refine ⟨h ▸ not_mem_nodeTable name, ?_⟩
  rintro rfl
  exact absurd h (by decide)

/-- An unquoted name of a table is read back from its nodes. -/
theorem isReadable_of_isIdentifier {name : String} (h : IsIdentifier name.toList) :
    IsReadable name := by
  obtain ⟨digits, c, rest, hname, hdigits, hc, hrest⟩ := h
  refine ⟨?_, ?_⟩
  · rw [hname, List.mem_append, List.mem_cons]
    rintro (hd | rfl | hr)
    · exact absurd (hdigits '.' hd) (by decide)
    · exact absurd hc (by decide)
    · exact absurd (hrest '.' hr) (by decide)
  · rintro rfl
    simp at hname

/-- An end of a reference whose node is read back to its table. -/
def Schema.Endpoint.IsReadable (e : Schema.Endpoint) : Prop :=
  '.' ∉ e.tableName.toList ∧ (e.fieldNames = [] → e.tableName ≠ "")

/-- A readable end is read back to its table. -/
theorem endTable_of_isReadable {e : Schema.Endpoint} (h : e.IsReadable) :
    endTable e = e.tableName := by
  unfold endTable
  split
  · rename_i hnil
    exact nodeTable_of_isReadable ⟨h.1, h.2 hnil⟩
  · exact beforePoint_of_not_mem h.1

end SchemaDiagram
