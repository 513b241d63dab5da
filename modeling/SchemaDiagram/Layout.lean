/-!
# SchemaDiagram.Layout

The measures of a diagram, and the conditions under which they make sense.
-/

namespace SchemaDiagram

/-- The measures of a diagram. -/
structure Layout where
  /-- The distance between the left edges of neighbouring tables. -/
  tablePitch : Float := 350
  originX : Float := 50
  originY : Float := 50
  /-- The width of one column of text. -/
  charWidth : Float := 8
  /-- What a table is wider than its widest text. -/
  labelPadding : Float := 60
  rowHeight : Float := 36
  /-- The space below the last row of a table. -/
  padding : Float := 10
  minRowWidth : Float := 180
  maxRowWidth : Float := 320
  deriving DecidableEq, Repr

namespace Layout

/-! ## Comparing numbers -/

/-- The greater of two numbers; what is not a number gives way.  Of two equal numbers it is the
second, which matters for the sign of zero. -/
def larger (a b : Float) : Float :=
  if b.isNaN then a else if b < a then a else b

/-- The smaller of two numbers; what is not a number gives way.  Of two equal numbers it is the
second, which matters for the sign of zero. -/
def smaller (a b : Float) : Float :=
  if b.isNaN then a else if a < b then a else b

/-! ## Validity -/

/-- What can be wrong with the measures. -/
inductive Invalid where
  | rowHeight
  | charWidth
  | rowBounds
  | rowOrder
  deriving DecidableEq, Repr

/-- What a message says of it. -/
def Invalid.message : Invalid → String
  | rowHeight => "rowHeight must be positive"
  | charWidth => "charWidth must be positive"
  | rowBounds => "row width bounds must be numbers"
  | rowOrder => "minRowWidth exceeds maxRowWidth"

/-- The first thing that is wrong, if anything is. -/
def check (l : Layout) : Except Invalid Unit :=
  if l.rowHeight ≤ 0 then .error .rowHeight
  else if l.charWidth ≤ 0 then .error .charWidth
  else if l.minRowWidth.isNaN || l.maxRowWidth.isNaN then .error .rowBounds
  else if l.maxRowWidth < l.minRowWidth then .error .rowOrder
  else .ok ()

end Layout

end SchemaDiagram
