/-!
# SchemaDiagram.Text.Lines

The lines of a text.  A line ends at a line feed, and a carriage return just before that line feed
belongs to the line end; a text that ends with a line feed has no empty line after it.
-/

namespace SchemaDiagram.Text

/-- Puts a character in front of the first line. -/
def consLine (c : Char) : List (List Char) → List (List Char)
  | [] => [[c]]
  | line :: rest => (c :: line) :: rest

/-- The lines of a text, without their ends. -/
def lines : List Char → List (List Char)
  | [] => []
  | '\n' :: cs => [] :: lines cs
  | '\r' :: '\n' :: cs => [] :: lines cs
  | c :: cs => consLine c (lines cs)

end SchemaDiagram.Text
