import SchemaDiagram.Text.Columns.Sequence

/-!
# SchemaDiagram.Text.Columns

The number of columns that a text takes on a terminal.  A text is measured from its end, since the
characters behind a character decide what it adds (`addColumns`); a `Context` keeps what they have
left open.
-/

namespace SchemaDiagram.Text

/-! ## Contexts -/

/-- The variation selectors that matter for width. -/
inductive Selector where
  /-- Shows an emoji as text. -/
  | text
  /-- Shows an emoji as a picture. -/
  | picture
  /-- Makes a curly quote wide. -/
  | wideQuote
  deriving DecidableEq

/-- The selector that a character is, if it is one. -/
def Selector.ofChar? (c : Char) : Option Selector :=
  if c.toNat = 0xFE0E then some .text
  else if c.toNat = 0xFE0F then some .picture
  else if c.toNat = 0xFE01 then some .wideQuote
  else none

/-- What the characters behind have left open: their tail, and the selectors that stand before it. -/
structure Context where
  tail : Tail
  selectors : List Selector
  deriving DecidableEq

namespace Context

/-- A tail without a selector. -/
def of (t : Tail) : Context := ⟨t, []⟩

/-- A context behind a selector.  A ligature stays open behind any number of selectors; what follows
a joiner stays open behind a selector for pictures.  Everything else ends there. -/
def select (s : Selector) (x : Context) : Context :=
  if x.tail.isLigature then { x with selectors := x.selectors.insert s }
  else if s = .picture && x.tail.isJoinedPicture then ⟨x.tail, [s]⟩
  else ⟨.other, [s]⟩

/-- A context whose selector for pictures has come to a character that it does not fit: only a
ligature and its other selectors stay open. -/
def withoutPicture (x : Context) : Context :=
  if Selector.picture ∉ x.selectors then x
  else if x.tail.isLigature then { x with selectors := x.selectors.filter (· ≠ .picture) }
  else .of .other

end Context

/-! ## Measuring -/

/-- The columns that a character adds before a context without a selector for pictures, and the
context that the two make.  Any character but a selector ends the selectors behind it. -/
def addBeforeSelectors (c : Char) (x : Context) : Int × Context :=
  match Selector.ofChar? c with
  | some s => (0, x.select s)
  | none =>
    if Selector.text ∈ x.selectors && narrowsAsText c then (1, .of .other)
    else if Selector.wideQuote ∈ x.selectors && isCurlyQuote c then (2, .of .other)
    else
      let (added, tail) := beforeTail c x.tail
      (added, .of tail)

/-- The columns that a character adds before a context, and the context that the two make.

A selector for pictures makes an emoji two columns wide, or none if it is joined to another; it
binds to the character right before it, so any other character ends it.  Up to U+00A0 a character
takes one column, a control as well; a carriage return before a line feed takes none. -/
def addColumns (c : Char) (x : Context) : Int × Context :=
  if Selector.picture ∈ x.selectors && hasShapes c then
    (if x.tail.isJoinedPicture then 0 else 2, .of .picture)
  else if c.toNat ≤ 0xA0 then
    if c = '\n' then (1, .of .lineFeed)
    else if c = '\r' && x = .of .lineFeed then (0, .of .other)
    else (1, .of .other)
  else addBeforeSelectors c x.withoutPicture

/-- The columns of a text and the context it makes, before the end of everything. -/
def measure : List Char → Int × Context
  | [] => (0, .of .other)
  | c :: cs =>
    let (width, x) := measure cs
    let (added, y) := addColumns c x
    (width + added, y)

/-- The columns that a text takes. -/
def columns (cs : List Char) : Nat := (measure cs).1.toNat

end SchemaDiagram.Text
