import SchemaDiagram.Diagram.Element
import SchemaDiagram.Position
import SchemaDiagram.Text.Blank
import SchemaDiagram.Text.Lines
import SchemaDiagram.Text.LowerCase

/-!
# SchemaDiagram.Locator

Where a source text declares an element of its diagram.

The locator reads lines, not tokens, so that it also works while a text is being edited.

1. A table is declared on the first line that begins with `table` and its name, in any case; every
   name that goes on after that counts too.
2. Its block begins on the first line from there on that has an opening brace, and ends on the
   first line after which no more braces are open than closed.
3. A field is on the first line inside the block that begins with its name; if the whole block
   stands on one line, it is there if it is one of the words between the braces.
-/

namespace SchemaDiagram.Locator

/-! ## Lines -/

/-- A line without the blanks around it, in lower case. -/
def folded (line : List Char) : List Char := Text.lower (Text.trim line)

/-- Whether a line begins the declaration of a table. -/
def declares (table : String) (line : List Char) : Bool :=
  ("table ".toList ++ Text.lower table.toList).isPrefixOf (folded line)

/-- How many more braces a line opens than it closes. -/
def balance (line : List Char) : Int := (line.count '{' : Int) - line.count '}'

/-! ## Blocks -/

/-- The line of a table's declaration and the line on which its block opens. -/
def blockStart? (lines : List (List Char)) (table : String) : Option (Nat × Nat) :=
  match lines.findIdx? (declares table) with
  | none => none
  | some first =>
    ((lines.drop first).findIdx? (·.contains '{')).map fun n => (first, first + n)

/-- The line, counted from the one at hand, after which the braces that are open are closed. -/
def closingLine? (depth : Int) : List (List Char) → Option Nat
  | [] => none
  | line :: rest =>
    let depth := depth + balance line
    if depth ≤ 0 then some 0 else (closingLine? depth rest).map (· + 1)

/-- The line, counted from the one at hand, that begins with a name before the block closes. -/
def fieldLine? (name : List Char) (depth : Int) : List (List Char) → Option Nat
  | [] => none
  | line :: rest =>
    let depth := depth + balance line
    if depth ≤ 0 then none
    else if name.isPrefixOf (folded line) then some 0
    else (fieldLine? name depth rest).map (· + 1)

/-- What stands behind the first opening brace of a line and before the last closing one after
it. -/
def inlineBody (line : List Char) : List Char :=
  let behind := (line.dropWhile (· != '{')).drop 1
  if behind.contains '}' then ((behind.reverse.dropWhile (· != '}')).drop 1).reverse else behind

/-! ## Elements -/

/-- The lines of a table. -/
def table? (lines : List (List Char)) (table : String) : Option Span :=
  match blockStart? lines table with
  | none => none
  | some (first, opening) =>
    (closingLine? 0 (lines.drop opening)).map fun n => .ofLines lines first (opening + n)

/-- The line of a field. -/
def field? (lines : List (List Char)) (table field : String) : Option Span :=
  let name := Text.lower field.toList
  match blockStart? lines table with
  | none => none
  | some (_, opening) =>
    match lines.drop opening with
    | [] => none
    | line :: rest =>
      if balance line ≤ 0 then
        if (Text.words (inlineBody line)).any (Text.lower · == name) then
          some (.ofLines lines opening opening)
        else none
      else
        (fieldLine? name (balance line) rest).map fun n =>
          .ofLines lines (opening + 1 + n) (opening + 1 + n)

/-- The lines of an element. -/
def element? (source : String) (e : Element) : Option Span :=
  let lines := Text.lines source.toList
  match e with
  | .table t | .header t => table? lines t
  | .field t f => field? lines t f

/-- The lines of the element that a text names. -/
def find? (source id : String) : Option Span := element? source (.ofText id)

end SchemaDiagram.Locator
