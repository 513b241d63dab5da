import SchemaDiagram.Text.Columns.Width

/-!
# SchemaDiagram.Text.Columns.Sequence

Neighbours that share their columns: emoji sequences, and the ligatures of a few scripts.

1. What decides is always what stands *behind* a character, so sequences are read from their end.
   A `Tail` is what the characters behind have left open.
2. `beforeTail` is the columns that a character adds before a tail, and the tail that the two make.
-/

namespace SchemaDiagram.Text

/-! ## Tails -/

/-- Letters that can form a ligature with a letter before them. -/
inductive Ligature where
  | hebrewLamed
  | bugineseYa
  | bugineseVowelYa
  | tifinaghConsonant
  | tifinaghJoined
  | lisuTone
  | orkhonI
  | khmerLetter
  deriving DecidableEq

/-- The part of an emoji sequence behind a zero-width joiner. -/
inductive Joined where
  | picture
  | keycap
  | flag
  | evenFlags
  | oddFlags
  /-- A closing tag, with this many tag letters and tag digits before it. -/
  | tags (letters digits : Nat)
  deriving DecidableEq

/-- What stands behind a character, as far as the width of the character depends on it. -/
inductive Tail where
  | other
  | lineFeed
  | skinTone
  | flag
  | flags
  | picture
  | joined (j : Joined)
  | alef
  /-- A letter of a ligature, behind a zero-width joiner or not. -/
  | letter (l : Ligature) (joiner : Bool)
  | kiratE
  | kiratAi
  deriving DecidableEq

namespace Tail

/-- Tails that a variation selector before them leaves as they are. -/
def isLigature : Tail → Bool
  | .alef | .letter _ _ => true
  | _ => false

/-- Tails that continue an emoji without adding a column. -/
def isJoinedPicture : Tail → Bool
  | .joined .picture | .joined .keycap => true
  | _ => false

end Tail

/-! ## Characters as tails -/

/-- Consonants of Tifinagh that can be stacked. -/
def isTifinaghConsonant (c : Char) : Bool :=
  (0x2D31 ≤ c.toNat && c.toNat ≤ 0x2D65) || c.toNat = 0x2D6F

/-- Khmer letters that have a form below another letter. -/
def khmerSubscripts : CharSet where
  ranges := [
    (0x1780, 0x1782), (0x1784, 0x1787), (0x1789, 0x178C), (0x178E, 0x1793), (0x1795, 0x1798),
    (0x179B, 0x179D), (0x17A0, 0x17A0), (0x17A2, 0x17A2), (0x17A7, 0x17A7), (0x17AB, 0x17AC),
    (0x17AF, 0x17AF)]

/-- Ignorable marks inside a ligature. -/
def ligatureMarks : CharSet where
  ranges := [
    (0x034F, 0x034F), (0x17B4, 0x17B5), (0x180B, 0x180D), (0x180F, 0x180F), (0x200D, 0x200D),
    (0xFE00, 0xFE0F), (0xE0100, 0xE01EF)]

/-- What a character is for the character before it. -/
def tailOf (c : Char) : Tail :=
  let n := c.toNat
  if isFlagLetter c then .flag
  else if isSkinTone c then .skinTone
  else if emojiPresentation.contains c then .picture
  else if alefs.contains c then .alef
  else if n = 0x05DC then .letter .hebrewLamed false
  else if khmerSubscripts.contains c then .letter .khmerLetter false
  else if n = 0x1A10 then .letter .bugineseYa false
  else if isTifinaghConsonant c then .letter .tifinaghConsonant false
  else if n = 0xA4FC || n = 0xA4FD then .letter .lisuTone false
  else if n = 0x10C03 then .letter .orkhonI false
  else if n = 0x16D67 then .kiratE
  else if n = 0x16D68 then .kiratAi
  else .other

/-! ## Characters before a tail -/

/-- The columns that a character adds before a letter of a ligature, and the tail it makes; none if
the two do not join. -/
def beforeLetter (c : Char) (l : Ligature) (joiner : Bool) : Option (Int × Tail) :=
  let n := c.toNat
  if isJoiner c then some (0, .letter l true)
  else if ligatureMarks.contains c then some (0, .letter l joiner)
  else match l with
    | .hebrewLamed => if joiner && n = 0x05D0 then some (0, .other) else none
    | .khmerLetter => if n = 0x17D2 then some (-1, .other) else none
    | .bugineseYa => if joiner && n = 0x1A17 then some (0, .letter .bugineseVowelYa true) else none
    | .bugineseVowelYa => if n = 0x1A15 then some (0, .other) else none
    | .tifinaghConsonant =>
      if n = 0x2D7F then some (1, .letter .tifinaghJoined true)
      else if joiner && isTifinaghConsonant c then some (0, .other)
      else none
    | .tifinaghJoined => if isTifinaghConsonant c then some (-1, .other) else none
    | .lisuTone => if 0xA4F8 ≤ n && n ≤ 0xA4FB then some (0, .other) else none
    | .orkhonI => if joiner && n = 0x10C32 then some (0, .other) else none

/-- The columns that a character adds before the rest of an emoji sequence, and the tail it
makes. -/
def beforeJoined (c : Char) (j : Joined) : Option (Int × Tail) :=
  let n := c.toNat
  match j with
  | .picture =>
    if n = 0x20E3 then some (0, .joined .keycap)
    else if isFlagLetter c then some (1, .joined .flag)
    else if isSkinTone c then some (0, .skinTone)
    else if n = 0xE007F then some (0, .joined (.tags 0 0))
    else if emojiPresentation.contains c then some (0, .picture)
    else none
  | .keycap => none
  | .flag => if isFlagLetter c then some (-1, .joined .evenFlags) else none
  | .evenFlags =>
    if isFlagLetter c then some (3, .joined .oddFlags)
    else if isJoiner c then some (0, .joined .picture)
    else none
  | .oddFlags =>
    if isFlagLetter c then some (-1, .joined .evenFlags)
    else if isJoiner c then some (0, .joined .picture)
    else none
  | .tags letters digits =>
    if 0xE0061 ≤ n && n ≤ 0xE007A && letters < 6 && digits = 0 then
      some (0, .joined (.tags (letters + 1) 0))
    else if 0xE0030 ≤ n && n ≤ 0xE0039 && letters < 5 && digits < 3 then
      some (0, .joined (.tags letters (digits + 1)))
    else if n = 0x1F3F4 && (digits = 3 || (digits = 0 && 3 ≤ letters)) then some (0, .picture)
    else none

/-- The columns that a character adds before a tail with which it shares some, and the tail that the
two make. -/
def sharedWidth (c : Char) (t : Tail) : Option (Int × Tail) :=
  let n := c.toNat
  match t with
  | .other => none
  | .lineFeed => none
  | .skinTone =>
    if modifierBase.contains c then some (0, .picture)
    else if isJoiner c then some (0, .joined .picture)
    else none
  | .flag => if isFlagLetter c then some (1, .flags) else none
  | .flags =>
    if isFlagLetter c then some (1, .flags)
    else if isJoiner c then some (0, .joined .picture)
    else none
  | .picture => if isJoiner c then some (0, .joined .picture) else none
  | .joined j => beforeJoined c j
  | .alef =>
    if lams.contains c then some (0, .other)
    else if isZeroWidth c && !notTransparent.contains c then some (0, .alef)
    else none
  | .letter l joiner => beforeLetter c l joiner
  | .kiratE =>
    if n = 0x16D63 || n = 0x16D69 then some (0, .other)
    else if n = 0x16D67 then some (0, .kiratAi)
    else if n = 0x16D68 then some (1, .kiratE)
    else none
  | .kiratAi => if n = 0x16D63 then some (0, .other) else none

/-- The columns that a character adds before a tail that no selector governs, and the tail that the
two make. -/
def beforeTail (c : Char) (t : Tail) : Int × Tail :=
  (sharedWidth c t).getD (widthOf c, tailOf c)

end SchemaDiagram.Text
