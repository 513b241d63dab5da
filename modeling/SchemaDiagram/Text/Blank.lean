import SchemaDiagram.Text.CharSet

/-!
# SchemaDiagram.Text.Blank

Blank characters, and what is read off a text by its blanks: the text without the blanks around
it, and its words.
-/

namespace SchemaDiagram.Text

/-- The Unicode property `White_Space`. -/
def whiteSpace : CharSet where
  ranges := [
    (0x0009, 0x000D), (0x0020, 0x0020), (0x0085, 0x0085), (0x00A0, 0x00A0), (0x1680, 0x1680),
    (0x2000, 0x200A), (0x2028, 0x2029), (0x202F, 0x202F), (0x205F, 0x205F), (0x3000, 0x3000)]

/-- A character that only separates others. -/
def isBlank (c : Char) : Bool := whiteSpace.contains c

/-- Drops the blanks at both ends. -/
def trim (cs : List Char) : List Char :=
  ((cs.dropWhile isBlank).reverse.dropWhile isBlank).reverse

/-- Whether there is nothing but blanks. -/
def isAllBlank (cs : List Char) : Bool := cs.all isBlank

/-- Dropping characters adds none. -/
theorem length_dropWhile_le (p : Char → Bool) (cs : List Char) :
    (cs.dropWhile p).length ≤ cs.length :=
  (List.dropWhile_suffix p).length_le

/-- What is left behind a character and others that pass a test is shorter than all of it. -/
theorem length_dropWhile_lt (p : Char → Bool) (c : Char) (cs : List Char) :
    (cs.dropWhile p).length < (c :: cs).length :=
  Nat.lt_succ_of_le (length_dropWhile_le p cs)

/-- The maximal runs of characters that are not blank, in order. -/
def words : List Char → List (List Char)
  | [] => []
  | c :: cs =>
    if isBlank c then words cs
    else (c :: cs.takeWhile (!isBlank ·)) :: words (cs.dropWhile (!isBlank ·))
termination_by cs => cs.length
decreasing_by
  · simp
  · exact length_dropWhile_lt (!isBlank ·) c cs

end SchemaDiagram.Text
