import SchemaDiagram.Text.Columns.Tables
import SchemaDiagram.Text.Printable

/-!
# SchemaDiagram.Text.Columns.Width

The number of columns that a character takes on its own: most take one, wide ones take two, and
marks that are written on other characters take none.
-/

namespace SchemaDiagram.Text

/-- The letters of a regional indicator; two of them make a flag. -/
def isFlagLetter (c : Char) : Bool := 0x1F1E6 ≤ c.toNat && c.toNat ≤ 0x1F1FF

/-- Marks that stand on other characters and take no column.  Four characters of these classes are
letters or joiners that take columns of their own. -/
def isZeroWidth (c : Char) : Bool :=
  let n := c.toNat
  (graphemeExtend.contains c || laterMarks.contains c || defaultIgnorable.contains c
      || attached.contains c)
    && !(n = 0x115F || n = 0x2D7F || n = 0xFF9E || n = 0xFF9F)

/-- The columns of a character on its own. -/
def widthOf (c : Char) : Nat :=
  let n := c.toNat
  if n = 0x17D8 then 3
  else if isZeroWidth c then 0
  else if n = 0x115F || n = 0x17A4 || wide.contains c then 2
  else if emojiPresentation.contains c && !isFlagLetter c then 2
  else 1

/-- The five skin tones. -/
def isSkinTone (c : Char) : Bool := 0x1F3FB ≤ c.toNat && c.toNat ≤ 0x1F3FF

/-- The invisible joiner between the parts of an emoji or a ligature. -/
def isJoiner (c : Char) : Bool := c.toNat = 0x200D

/-- Emoji that a variation selector can give another shape. -/
def hasShapes (c : Char) : Bool := textEmoji.contains c || variableEmoji.contains c

/-- Emoji shown as pictures that are narrower as text; ideographs in squares stay as wide. -/
def narrowsAsText (c : Char) : Bool :=
  variableEmoji.contains c && !(0x1F200 ≤ c.toNat && c.toNat ≤ 0x1F2FF)

/-- The four curly quotes, which a variation selector can make wide. -/
def isCurlyQuote (c : Char) : Bool :=
  c = '‘' || c = '’' || c = '“' || c = '”'

end SchemaDiagram.Text
