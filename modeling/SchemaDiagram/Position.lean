/-!
# SchemaDiagram.Position

Places in a source text.

1. A `Position` is a line and a column, both counted from one.  Columns count characters, whatever
   their width, and a line feed starts a new line.
2. A `Span` runs from a position to one past its last character.
-/

namespace SchemaDiagram

/-- A line and a column, both counted from one. -/
structure Position where
  line : Nat
  column : Nat
  deriving DecidableEq, Repr

namespace Position

/-- The first character of a text. -/
def start : Position := ⟨1, 1⟩

instance : Inhabited Position := ⟨start⟩

/-- The position behind a character. -/
def next (p : Position) (c : Char) : Position :=
  if c = '\n' then ⟨p.line + 1, 1⟩ else ⟨p.line, p.column + 1⟩

/-- The position behind a text that begins here. -/
def after (p : Position) (cs : List Char) : Position := cs.foldl next p

@[simp] theorem after_nil (p : Position) : p.after [] = p := rfl

@[simp] theorem after_cons (p : Position) (c : Char) (cs : List Char) :
    p.after (c :: cs) = (p.next c).after cs := rfl

@[simp] theorem after_append (p : Position) (cs ds : List Char) :
    p.after (cs ++ ds) = (p.after cs).after ds := List.foldl_append

/-- `line:column`. -/
def text (p : Position) : String := toString p.line ++ ":" ++ toString p.column

end Position

/-- A stretch of a source text; `finish` is one past its last character. -/
structure Span where
  start : Position
  finish : Position
  deriving DecidableEq, Repr

namespace Span

/-- The empty stretch at a position. -/
def point (p : Position) : Span := ⟨p, p⟩

/-- The whole of the lines `first` to `last`, counted from zero.  A line that the text does not have
is empty. -/
def ofLines (lines : List (List Char)) (first last : Nat) : Span :=
  ⟨⟨first + 1, 1⟩, ⟨last + 1, (lines[last]?.getD []).length + 1⟩⟩

/-- Whether the span starts and ends on the same line. -/
def isSingleLine (s : Span) : Bool := s.start.line == s.finish.line

/-- The two positions, joined by a dash. -/
def text (s : Span) : String := s.start.text ++ "-" ++ s.finish.text

end Span

end SchemaDiagram
