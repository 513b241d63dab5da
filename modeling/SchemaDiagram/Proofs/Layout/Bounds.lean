import Mathlib
import SchemaDiagram.Proofs.Diagram.Nodes

/-!
# SchemaDiagram.Proofs.Layout.Bounds

The rows of valid layouts.

1. Numbers are in order one way or the other, and what is not a number compares with nothing
   (`Layout.order`).  So a width that is raised to the lower bound and then lowered to the upper one
   is between the two, whatever it was: finite, infinite or not a number
   (`Layout.rowWidth_of_check`).
2. The check rejects a height of zero or less.  A height that is not a number is neither that nor
   positive, so it passes; rows have a height in every other valid layout
   (`Layout.rowHeight_pos_iff`).
-/

namespace SchemaDiagram

open Float.Model (UnpackedFloat)

namespace Layout

/-! ## Comparing numbers -/

section

variable {a b c : Float}

theorem compare_sign_swap (s t : UnpackedFloat.Sign) : compare t s = (compare s t).swap := by
  cases s <;> cases t <;> rfl

/-- Two unpacked numbers compare one way as they do the other, turned around. -/
theorem compare_unpacked_swap (x y : UnpackedFloat) : y.compare x = (x.compare y).map .swap := by
  cases x with
  | notANumber => cases y <;> rfl
  | infinity s =>
    cases y with
    | infinity t => simp [UnpackedFloat.compare, compare_sign_swap s t]
    | _ => cases s <;> rfl
  | zero s =>
    cases y with
    | infinity t | finite t => cases t <;> rfl
    | _ => rfl
  | finite s =>
    cases y with
    | infinity t => cases t <;> rfl
    | finite t =>
      cases s <;> cases t <;>
        simp [UnpackedFloat.compare, Ordering.swap_then, ← Std.OrientedCmp.eq_swap]
    | zero => cases s <;> rfl
    | notANumber => rfl

/-- A number is equal to itself. -/
theorem compare_unpacked_self {x : UnpackedFloat} (h : x.isNaN = false) :
    x.compare x = some .eq := by
  cases x with
  | notANumber => contradiction
  | infinity s | finite s => cases s <;> simp [UnpackedFloat.compare] <;> rfl
  | zero => rfl

/-- Only what is not a number fails to compare. -/
theorem compare_unpacked_eq_none {x y : UnpackedFloat} :
    x.compare y = none ↔ x.isNaN = true ∨ y.isNaN = true := by
  fun_cases UnpackedFloat.compare x y <;> simp_all [UnpackedFloat.isNaN]

/-- How two numbers compare.  What is not a number does not compare with anything. -/
def order (a b : Float) : Option Ordering := a.toModel.unpack.compare b.toModel.unpack

theorem order_swap (a b : Float) : order b a = (order a b).map .swap := compare_unpacked_swap ..

theorem order_self (h : a.isNaN = false) : order a a = some .eq := compare_unpacked_self h

theorem order_eq_none : order a b = none ↔ a.isNaN = true ∨ b.isNaN = true :=
  compare_unpacked_eq_none

/-- One number is below another if it compares so. -/
theorem lt_iff_order : a < b ↔ order a b = some .lt := by
  have hlt : a < b ↔ (order a b == some .lt) = true := decide_eq_true_iff
  rw [hlt, beq_iff_eq]

/-- One number is not above another if it compares as below or equal. -/
theorem le_iff_order : a ≤ b ↔ order a b = some .lt ∨ order a b = some .eq := by
  have hle : a ≤ b ↔ (order a b).any (·.isLE) = true := decide_eq_true_iff
  rw [hle]
  rcases order a b with _ | _ | _ | _ <;> simp

theorem le_of_lt (h : a < b) : a ≤ b := le_iff_order.2 (.inl (lt_iff_order.1 h))

theorem le_self (h : a.isNaN = false) : a ≤ a := le_iff_order.2 (.inr (order_self h))

/-- Any two numbers compare. -/
theorem exists_order (ha : a.isNaN = false) (hb : b.isNaN = false) : ∃ o, order a b = some o := by
  refine Option.ne_none_iff_exists'.1 fun hnone => ?_
  rcases order_eq_none.1 hnone with h | h
  · rw [ha] at h; contradiction
  · rw [hb] at h; contradiction

/-- Of two numbers, if the first is not below the second, the second is not above the first. -/
theorem le_of_not_lt (ha : a.isNaN = false) (hb : b.isNaN = false) (h : ¬ a < b) : b ≤ a := by
  obtain ⟨o, ho⟩ := exists_order ha hb
  rw [lt_iff_order, ho] at h
  rw [le_iff_order, order_swap, ho]
  cases o <;> simp_all

/-- Of two numbers, if the first is above the second, the second is below the first. -/
theorem lt_of_not_le (ha : a.isNaN = false) (hb : b.isNaN = false) (h : ¬ a ≤ b) : b < a := by
  obtain ⟨o, ho⟩ := exists_order ha hb
  rw [le_iff_order, ho] at h
  rw [lt_iff_order, order_swap, ho]
  cases o <;> simp_all

/-- What something is below is a number. -/
theorem not_isNaN_of_lt (h : a < b) : b.isNaN = false := by
  rw [lt_iff_order] at h
  cases hb : b.isNaN with
  | false => rfl
  | true =>
    rw [order_eq_none.2 (.inr hb)] at h
    contradiction

/-- The greater of two numbers is not below the second, which has to be a number. -/
theorem le_larger_right (hb : b.isNaN = false) (a : Float) : b ≤ larger a b := by
  rw [larger, if_neg (ne_true_of_eq_false hb)]
  split
  · exact le_of_lt ‹_›
  · exact le_self hb

/-- The smaller of two numbers is not above the second, which has to be a number. -/
theorem smaller_le_right (hb : b.isNaN = false) (a : Float) : smaller a b ≤ b := by
  rw [smaller, if_neg (ne_true_of_eq_false hb)]
  split
  · exact le_of_lt ‹_›
  · exact le_self hb

/-- What is not above either of two numbers is not above the smaller one. -/
theorem le_smaller (ha : c ≤ a) (hb : c ≤ b) : c ≤ smaller a b := by
  unfold smaller
  split
  · exact ha
  · split
    · exact ha
    · exact hb

end

/-! ## Valid layouts -/

variable {l : Layout}

/-- What the check of a layout finds out. -/
theorem check_eq_ok : l.check = .ok () ↔ ¬ l.rowHeight ≤ 0 ∧ ¬ l.charWidth ≤ 0 ∧
    l.minRowWidth.isNaN = false ∧ l.maxRowWidth.isNaN = false ∧
    ¬ l.maxRowWidth < l.minRowWidth := by
  unfold check
  grind

/-- The extent of a row that makes sense: it has a height, and its width is within bounds. -/
structure IsRowSize (l : Layout) (size : Size) : Prop where
  height : 0 < size.height
  minWidth : l.minRowWidth ≤ size.width
  maxWidth : size.width ≤ l.maxRowWidth

/-- Rows are clamped to the bounds, whatever the width of the table is. -/
theorem rowWidth_of_check (h : l.check = .ok ()) (t : Schema.Table) :
    l.minRowWidth ≤ (l.rowSize t).width ∧ (l.rowSize t).width ≤ l.maxRowWidth := by
  obtain ⟨-, -, hmin, hmax, hbounds⟩ := check_eq_ok.1 h
  have hle : l.minRowWidth ≤ l.maxRowWidth := le_of_not_lt hmax hmin hbounds
  exact ⟨le_smaller (le_larger_right hmin _) hle, smaller_le_right hmax _⟩

/-- A height that passes the check is positive, provided that it is a number. -/
theorem rowHeight_pos_iff (h : l.check = .ok ()) : 0 < l.rowHeight ↔ l.rowHeight.isNaN = false :=
  ⟨not_isNaN_of_lt, fun hnumber => lt_of_not_le hnumber (by decide) (check_eq_ok.1 h).1⟩

/-- The rows of a valid layout have a width within its bounds and, if its height is a number, a
height. -/
theorem isRowSize_rowSize (h : l.check = .ok ()) (hnumber : l.rowHeight.isNaN = false)
    (t : Schema.Table) : l.IsRowSize (l.rowSize t) where
  height := (rowHeight_pos_iff h).2 hnumber
  minWidth := (rowWidth_of_check h t).1
  maxWidth := (rowWidth_of_check h t).2

end Layout

namespace Diagram

variable {l : Layout} {theme : String} {s : Schema} {n : Node}

/-- Headers and fields have the extent of the rows of their table. -/
theorem exists_rowSize (hn : n ∈ nodes l theme s) (hkind : n.kind ≠ .container) :
    ∃ t ∈ s.tables, n.size = l.rowSize t := by
  obtain ⟨ns, hns, hn⟩ := List.mem_flatten.1 hn
  obtain ⟨i, hi, rfl⟩ := List.mem_mapIdx.1 hns
  refine ⟨s.tables[i], List.getElem_mem hi, ?_⟩
  rw [tableNodes, List.mem_cons, List.mem_cons] at hn
  rcases hn with rfl | rfl | hrow
  · exact absurd rfl hkind
  · rfl
  · obtain ⟨k, _, rfl⟩ := List.mem_mapIdx.1 hrow
    rfl

/-- **Headers and fields of a valid layout keep to its bounds**, whatever the measures of the layout
and the texts of the schema are.  They have a height exactly if the height of rows is a number,
which the check does not ask for. -/
theorem isRowSize_iff_of_check (h : l.check = .ok ()) (hn : n ∈ nodes l theme s)
    (hkind : n.kind ≠ .container) :
    (l.minRowWidth ≤ n.size.width ∧ n.size.width ≤ l.maxRowWidth) ∧
      (l.IsRowSize n.size ↔ l.rowHeight.isNaN = false) := by
  obtain ⟨t, -, hsize⟩ := exists_rowSize hn hkind
  rw [hsize]
  refine ⟨Layout.rowWidth_of_check h t, fun hrow => ?_, fun hnumber => ?_⟩
  · exact (Layout.rowHeight_pos_iff h).1 hrow.height
  · exact Layout.isRowSize_rowSize h hnumber t

/-- The layout of a text whose characters have no width, with one bound that is infinite. -/
def unmeasured : Layout := { charWidth := 0 / 0, labelPadding := 0 / 0, maxRowWidth := 1 / 0 }

/-- A table whose width is not a number. -/
theorem isRowSize_of_unmeasured : unmeasured.check = .ok () ∧
    header unmeasured "" { name := "t" } ∈ nodes unmeasured "" { tables := [{ name := "t" }] } ∧
    (header unmeasured "" { name := "t" }).kind ≠ .container ∧
    (unmeasured.tableWidth { name := "t" }).isNaN = true ∧
    unmeasured.IsRowSize (header unmeasured "" { name := "t" }).size := by
  have hcheck : unmeasured.check = .ok () := Layout.check_eq_ok.2 (by decide +kernel)
  have hheader : header unmeasured "" { name := "t" } ∈
      nodes unmeasured "" { tables := [{ name := "t" }] } := .tail _ (.head _)
  have hkind : (header unmeasured "" { name := "t" }).kind ≠ .container := by decide
  have hnumber : unmeasured.rowHeight.isNaN = false := by decide +kernel
  exact ⟨hcheck, hheader, hkind, by decide +kernel,
    (isRowSize_iff_of_check hcheck hheader hkind).2.2 hnumber⟩

/-- A height that is not a number passes the check, and is the height of a header. -/
theorem not_isRowSize_of_check : ¬ ∀ (l : Layout) (theme : String) (s : Schema),
    l.check = .ok () → ∀ n ∈ nodes l theme s, n.kind ≠ .container → l.IsRowSize n.size := by
  intro h
  let l : Layout := { rowHeight := 0 / 0 }
  let t : Schema.Table := { name := "t" }
  have hcheck : l.check = .ok () := Layout.check_eq_ok.2 (by decide +kernel)
  have hrow := h l "" { tables := [t] } hcheck (header l "" t) (.tail _ (.head _)) (by decide)
  have hnan : l.rowHeight.isNaN = true := by decide +kernel
  rw [(Layout.rowHeight_pos_iff hcheck).1 hrow.height] at hnan
  contradiction

end Diagram

end SchemaDiagram
