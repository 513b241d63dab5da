import SchemaDiagram.Json.Float
import SchemaDiagram.Json.Reader
import SchemaDiagram.Layout

/-!
# SchemaDiagram.Layout.Reader

Reading the measures of a diagram from JSON: an object with the measures by name, or an array with
the first few of them in order.  Measures that are missing keep their usual values, members of
other names are passed over, and a measure given twice is an error.
-/

namespace SchemaDiagram.Layout

/-- Why a text is no layout. -/
inductive ReadError where
  /-- The text is not JSON, or not of the right form. -/
  | malformed
  | invalid (cause : Invalid)
  deriving DecidableEq, Repr

/-- What a message says of it. -/
def ReadError.message : ReadError → String
  | malformed => "invalid diagram config"
  | invalid cause => "invalid diagram config: " ++ cause.message

/-- The names of the measures, in their order in an array. -/
def names : List String :=
  ["tablePitch", "originX", "originY", "charWidth", "labelPadding", "rowHeight", "padding",
    "minRowWidth", "maxRowWidth"]

/-- The number that a value is. -/
def number? : Json → Option Float
  | .number n => n.toFloat?
  | _ => none

/-- A measure among members, or its usual value if it is not there. -/
def measure? (members : List (String × Json)) (name : String) (usual : Float) : Option Float :=
  match Json.valuesOf name members with
  | [] => some usual
  | [value] => number? value
  | _ => none

/-- The measures that members give. -/
def ofMembers? (members : List (String × Json)) : Option Layout := do
  let usual : Layout := {}
  let tablePitch ← measure? members "tablePitch" usual.tablePitch
  let originX ← measure? members "originX" usual.originX
  let originY ← measure? members "originY" usual.originY
  let charWidth ← measure? members "charWidth" usual.charWidth
  let labelPadding ← measure? members "labelPadding" usual.labelPadding
  let rowHeight ← measure? members "rowHeight" usual.rowHeight
  let padding ← measure? members "padding" usual.padding
  let minRowWidth ← measure? members "minRowWidth" usual.minRowWidth
  let maxRowWidth ← measure? members "maxRowWidth" usual.maxRowWidth
  return { tablePitch, originX, originY, charWidth, labelPadding, rowHeight, padding, minRowWidth,
           maxRowWidth }

/-- The measures that a value gives. -/
def ofJson? : Json → Option Layout
  | .object members => ofMembers? members
  | .array items => if items.length ≤ names.length then ofMembers? (names.zip items) else none
  | _ => none

/-- The measures that a text gives, if they are valid. -/
def ofText (text : String) : Except ReadError Layout :=
  match (Json.read? text).bind ofJson? with
  | none => .error .malformed
  | some l =>
    match l.check with
    | .error cause => .error (.invalid cause)
    | .ok _ => .ok l

end SchemaDiagram.Layout
