import SchemaDiagram.Proofs.Locator.Extent
import SchemaDiagram.Proofs.Token.Concat

/-!
# SchemaDiagram.Proofs.Locator.Elsewhere

Edits above and below an element that the locator finds.

1. Lines put above a text in which no table of the name is declared move what is found further
   below, and nothing else; nor do they let anything be found (`element?_above`).
2. Lines put below a text change nothing about what is found in it (`element?_below`): each search
   stops before it comes to them.

Between a text and what is put below it a line has to end, as the line that the text breaks off in
would go on otherwise.
-/

namespace SchemaDiagram

/-- The same lines, some lines further below. -/
def Span.below (n : Nat) (s : Span) : Span := ⟨s.start.below n, s.finish.below n⟩

namespace Locator

open Text

variable {above rows below : List (List Char)} {table field : String} {name : List Char}
  {depth : Int} {first opening last n : Nat} {s : Span}

/-! ## Lines above -/

/-- Lines above move the place of some lines down. -/
theorem ofLines_above (above rows : List (List Char)) (first last : Nat) :
    Span.ofLines (above ++ rows) (above.length + first) (above.length + last) =
      (Span.ofLines rows first last).below above.length := by
  have hrow : (above ++ rows)[above.length + last]? = rows[last]? := by
    rw [List.getElem?_append_right (Nat.le_add_right _ _), Nat.add_sub_cancel_left]
  have hline (n : Nat) : above.length + n + 1 = n + 1 + above.length := by omega
  rw [Span.ofLines, hrow, hline, hline]
  rfl

/-- Lines above that declare no such table move the beginning of its block down. -/
theorem blockStart?_above (h : ∀ row ∈ above, declares table row = false) :
    blockStart? (above ++ rows) table = (blockStart? rows table).map fun (first, opening) =>
      (above.length + first, above.length + opening) := by
  have hnone : above.findIdx? (declares table) = none := List.findIdx?_eq_none_iff.2 h
  unfold blockStart?
  rw [List.findIdx?_append, hnone, Option.none_or]
  cases rows.findIdx? (declares table) with
  | none => rfl
  | some first =>
    dsimp only [Option.map_some]
    rw [Nat.add_comm first, List.drop_length_add_append, Option.map_map]
    congr 1
    funext n
    rw [Nat.add_assoc]
    rfl

/-- Lines above that declare no such table move the table down. -/
theorem table?_above (h : ∀ row ∈ above, declares table row = false) :
    table? (above ++ rows) table = (table? rows table).map (.below above.length) := by
  unfold table?
  rw [blockStart?_above h]
  cases blockStart? rows table with
  | none => rfl
  | some start =>
    obtain ⟨first, opening⟩ := start
    dsimp only [Option.map_some]
    simp only [List.drop_length_add_append, Option.map_map, Nat.add_assoc, ofLines_above]
    rfl

/-- Lines above that declare no such table move its fields down. -/
theorem field?_above (h : ∀ row ∈ above, declares table row = false) :
    field? (above ++ rows) table field = (field? rows table field).map (.below above.length) := by
  unfold field?
  rw [blockStart?_above h]
  cases blockStart? rows table with
  | none => rfl
  | some start =>
    obtain ⟨first, opening⟩ := start
    dsimp only [Option.map_some]
    rw [List.drop_length_add_append]
    cases rows.drop opening with
    | nil => rfl
    | cons row rows =>
      simp only [Nat.add_assoc, ofLines_above]
      split_ifs <;> simp [Function.comp_def]

/-! ## Lines below -/

/-- Lines below change nothing about the place of lines that are there. -/
theorem ofLines_below (hlast : last < rows.length) (below : List (List Char)) :
    Span.ofLines (rows ++ below) first last = .ofLines rows first last := by
  rw [Span.ofLines, List.getElem?_append_left hlast]
  rfl

/-- The search for a block stops before the lines below. -/
theorem blockStart?_below (h : blockStart? rows table = some (first, opening))
    (below : List (List Char)) : blockStart? (rows ++ below) table = some (first, opening) := by
  unfold blockStart? at *
  rw [List.findIdx?_append]
  cases hfirst : rows.findIdx? (declares table) with
  | none =>
    rw [hfirst] at h
    contradiction
  | some k =>
    have hlt : k < rows.length := (List.findIdx?_eq_some_iff_getElem.1 hfirst).1
    rw [hfirst] at h
    obtain ⟨n, hn, heq⟩ := Option.map_eq_some_iff.1 h
    rw [Option.some_or]
    dsimp only
    rw [List.drop_append_of_le_length hlt.le, List.findIdx?_append, hn, Option.some_or,
      Option.map_some, heq]

/-- The search for the end of a block stops before the lines below. -/
theorem closingLine?_below (h : closingLine? depth rows = some n) (below : List (List Char)) :
    closingLine? depth (rows ++ below) = some n := by
  induction rows generalizing depth n with
  | nil => contradiction
  | cons row rows ih =>
    rw [closingLine?] at h
    rw [List.cons_append, closingLine?]
    split_ifs at h ⊢
    · exact h
    · obtain ⟨m, hm, rfl⟩ := Option.map_eq_some_iff.1 h
      rw [ih hm, Option.map_some]

/-- The search for a field stops before the lines below. -/
theorem fieldLine?_below (h : fieldLine? name depth rows = some n) (below : List (List Char)) :
    fieldLine? name depth (rows ++ below) = some n := by
  induction rows generalizing depth n with
  | nil => contradiction
  | cons row rows ih =>
    rw [fieldLine?] at h
    rw [List.cons_append, fieldLine?]
    split_ifs at h ⊢
    · exact h
    · obtain ⟨m, hm, rfl⟩ := Option.map_eq_some_iff.1 h
      rw [ih hm, Option.map_some]

/-- A block begins on one of the lines. -/
theorem lt_length_of_blockStart? (h : blockStart? rows table = some (first, opening)) :
    opening < rows.length := by
  obtain ⟨row, hrow, -⟩ := exists_row_of_blockStart? h
  exact (List.getElem?_eq_some_iff.1 hrow).1

/-- A table that is found is found with any lines below. -/
theorem table?_below (h : table? rows table = some s) (below : List (List Char)) :
    table? (rows ++ below) table = some s := by
  cases hstart : blockStart? rows table with
  | none =>
    rw [table?, hstart] at h
    contradiction
  | some start =>
    obtain ⟨first, opening⟩ := start
    rw [table?_of_blockStart? hstart] at h
    obtain ⟨n, hn, rfl⟩ := Option.map_eq_some_iff.1 h
    have hlast := (closingLine?_drop_iff.1 hn).inside
    rw [table?_of_blockStart? (blockStart?_below hstart below),
      List.drop_append_of_le_length (lt_length_of_blockStart? hstart).le,
      closingLine?_below hn, Option.map_some, ofLines_below hlast]

/-- A field that is found is found with any lines below. -/
theorem field?_below (h : field? rows table field = some s) (below : List (List Char)) :
    field? (rows ++ below) table field = some s := by
  cases hstart : blockStart? rows table with
  | none =>
    rw [field?, hstart] at h
    contradiction
  | some start =>
    obtain ⟨first, opening⟩ := start
    have hopening := lt_length_of_blockStart? hstart
    rw [field?, hstart] at h
    rw [field?, blockStart?_below hstart below]
    dsimp only at h ⊢
    rw [List.drop_append_of_le_length hopening.le, List.drop_eq_getElem_cons hopening,
      List.cons_append]
    rw [List.drop_eq_getElem_cons hopening] at h
    dsimp only at h ⊢
    split_ifs at h ⊢
    · rw [ofLines_below hopening, h]
    · obtain ⟨n, hn, rfl⟩ := Option.map_eq_some_iff.1 h
      have hlast := lt_length_of_fieldLine? hn
      rw [List.length_drop] at hlast
      rw [fieldLine?_below hn, Option.map_some, ofLines_below (by omega)]

/-! ## In a text -/

/-- Whole lines above a text that declare no such table move the element down, and let none be
found. -/
theorem element?_above {p source : String} {e : Element} (hp : WholeLines p.toList)
    (h : ∀ row ∈ lines p.toList, declares e.tableName row = false) :
    element? (p ++ source) e = (element? source e).map (.below (lines p.toList).length) := by
  unfold element?
  rw [String.toList_append, lines_append hp]
  cases e with
  | table t => exact table?_above h
  | header t => exact table?_above h
  | field t f => exact field?_above h

/-- A text below whole lines changes nothing about an element that is found in them. -/
theorem element?_below {source : String} {e : Element} (hsource : WholeLines source.toList)
    (h : element? source e = some s) (x : String) : element? (source ++ x) e = some s := by
  unfold element? at *
  rw [String.toList_append, lines_append hsource]
  cases e with
  | table t => exact table?_below h _
  | header t => exact table?_below h _
  | field t f => exact field?_below h _

/-- **What is found stays found under edits elsewhere.**  Where an element is found in a text that
ends with a line feed, any text may follow, and before it whole lines, none of which declares the
element's table: the same lines are found, as many lines further below as were put before. -/
theorem element?_append {p source x : String} {e : Element}
    (hp : p = "" ∨ p.toList.getLast? = some '\n') (hsource : source.toList.getLast? = some '\n')
    (hdeclares : ∀ row ∈ lines p.toList, declares e.tableName row = false)
    (h : element? source e = some s) :
    element? (p ++ source ++ x) e = some (s.below (lines p.toList).length) := by
  have hwhole : WholeLines p.toList := by
    rcases hp with rfl | hlast
    · exact .nil
    · exact wholeLines_of_getLast? (by simp [hlast])
  have hwhole' : WholeLines source.toList := wholeLines_of_getLast? (by simp [hsource])
  have habove : element? (p ++ source) e = some (s.below (lines p.toList).length) := by
    rw [element?_above hwhole hdeclares, h, Option.map_some]
  refine element?_below ?_ habove x
  rw [String.toList_append]
  exact hwhole.append hwhole'

/-- A table that does not close above, and one of the same name below. -/
theorem element?_append_open :
    element? ("Table u \x7b\r\n" ++ "Table t \x7b\r\n  a int\r\n\x7d\n" ++ "Table t \x7b a \x7d")
      (.field "t" "a") = some ⟨⟨3, 1⟩, ⟨3, 8⟩⟩ := by
  have hfound : element? "Table t \x7b\r\n  a int\r\n\x7d\n" (.field "t" "a") =
      some ⟨⟨2, 1⟩, ⟨2, 8⟩⟩ := by decide +kernel
  have hdeclares : ∀ row ∈ lines "Table u \x7b\r\n".toList,
      declares (Element.field "t" "a").tableName row = false := by decide +kernel
  exact element?_append (.inr (by decide)) (by decide) hdeclares hfound

end Locator

end SchemaDiagram
