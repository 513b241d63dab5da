import SchemaDiagram.Proofs.Grammar.Nesting
import SchemaDiagram.Proofs.Text.Lines

/-!
# SchemaDiagram.Proofs.Locator.Cut

A text, parted at a table in it:

```
before keyword gap name more { body } after
```

The positions of the tokens of a table say where the text is parted, and in one way only
(`Cut.IsAt.unique`).  Every text that is read is so parted at each of its tables that is named by one
word (`exists_cut`), the body at each of its fields (`Cut.Reading.exists_field`).  Where no comment
and no quoted text has a brace, the grammar says that those of the text are balanced
(`Cut.Reading.counts`).
-/

namespace SchemaDiagram

open Text Locator

/-! ## Tables in a text -/

/-- A text, parted at a table in it: at its keyword, its name and the braces of its block. -/
structure Cut where
  before : List Char
  keyword : List Char
  gap : List Char
  name : List Char
  more : List Char
  body : List Char
  after : List Char

namespace Cut

variable {c c' : Cut} {source : String} {p : TablePlace} {rest : List Located}

/-- The text from the keyword up to the opening brace. -/
def head (c : Cut) : List Char := c.keyword ++ (c.gap ++ (c.name ++ c.more))

/-- The whole text. -/
def text (c : Cut) : List Char := c.before ++ (c.head ++ '{' :: (c.body ++ '}' :: c.after))

/-- The text up to the opening brace and with it. -/
def opened (c : Cut) : List Char := c.before ++ (c.head ++ ['{'])

/-- The text is that of a source, parted at the tokens of a table. -/
structure IsAt (c : Cut) (source : String) (p : TablePlace) : Prop where
  text : source.toList = c.text
  keyword : p.keyword.token = .identifier (String.ofList c.keyword)
  begins : p.keyword.position = .behind c.before
  name : p.head.head? =
    some ⟨.identifier (String.ofList c.name), .behind (c.before ++ (c.keyword ++ c.gap))⟩
  opening : p.opening.position = .behind (c.before ++ c.head)
  closing : p.closing.position = .behind (c.opened ++ c.body)

/-- A text is parted at a table in one way only. -/
theorem IsAt.unique (h : c.IsAt source p) (h' : c'.IsAt source p) : c = c' := by
  obtain ⟨before, keyword, gap, name, more, body, after⟩ := c
  obtain ⟨before', keyword', gap', name', more', body', after'⟩ := c'
  have hkeyword := h.keyword.symm.trans h'.keyword
  have hname := h.name.symm.trans h'.name
  simp only [Token.identifier.injEq, String.ofList_inj, Located.mk.injEq, Option.some.injEq]
    at hkeyword hname
  obtain ⟨rfl, hname⟩ := hname
  subst hkeyword
  -- from the front on, each position says what stands before it
  have htext : before ++ ((keyword ++ (gap ++ (name ++ more))) ++ '{' :: (body ++ '}' :: after)) =
      before' ++ ((keyword ++ (gap' ++ (name ++ more'))) ++ '{' :: (body' ++ '}' :: after')) :=
    h.text.symm.trans h'.text
  obtain ⟨rfl, hhead⟩ := append_inj_of_behind [] htext (h.begins.symm.trans h'.begins)
  simp only [List.append_assoc, List.append_cancel_left_eq] at hhead
  obtain ⟨rfl, hmore⟩ := append_inj_of_behind (before ++ keyword) hhead (by simpa using hname)
  rw [List.append_cancel_left_eq] at hmore
  have hopening := h.opening.symm.trans h'.opening
  have hclosing := h.closing.symm.trans h'.closing
  simp only [head, opened, ← List.append_assoc] at hopening hclosing
  obtain ⟨rfl, hblock⟩ := append_inj_of_behind _ hmore hopening
  obtain ⟨rfl, hafter⟩ := append_inj_of_behind _ (List.cons.inj hblock).2 hclosing
  rw [(List.cons.inj hafter).2]

/-- What is read of a text that is parted at a table. -/
structure Reading (c : Cut) (p : TablePlace) (rest : List Located) : Prop where
  keyword : lowerAscii c.keyword = Keyword.table.spelling.toList
  word : IsIdentifier c.keyword
  name : c.name = p.table.name.toList
  identifier : IsIdentifier c.name
  parted : ∀ d ∈ (c.more ++ '{' :: (c.body ++ '}' :: c.after)).head?, PartsWords d
  body : Lexeme.Reads (.behind c.opened) (c.body ++ '}' :: c.after) (p.body ++ p.closing :: rest)
  braces_sublist : (braces p.body).Sublist (c.body.filter isBrace)

end Cut

/-- A table that is named by one word. -/
def TablePlace.IsPlain (p : TablePlace) : Prop :=
  p.table.schemaName = none ∧ p.head.head?.map (·.token) = some (.identifier p.table.name)

/-- A text that is read has a table with a plain name in it. -/
theorem exists_cut {source : String} {p : TablePlace} {ts rest : List Located}
    (hreads : Lexeme.Reads .start source.toList (ts ++ (p.tokens ++ rest)))
    (hread : p.IsRead rest) (hplain : p.IsPlain) :
    ∃ c : Cut, c.IsAt source p ∧ c.Reading p rest := by
  obtain ⟨t, head, hhead, -, hfollow⟩ := hread.exists_name hplain.1
  have ht : t.token = .identifier p.table.name := by simpa [hhead] using hplain.2
  obtain ⟨text, hkeyword⟩ := Grammar.isWord_of_isKeyword hread.keyword
  have htext : lowerAscii text.toList = Keyword.table.spelling.toList := by
    simpa [hkeyword, Token.isKeyword] using hread.keyword
  rw [← Position.behind_nil, TablePlace.tokens, hhead] at hreads
  simp only [List.cons_append, List.append_assoc, List.nil_append] at hreads
  obtain ⟨before, keyword, r₁, hr₁, -, hposition₁, hspells₁, -, hreads⟩ :=
    Lexeme.exists_of_reads_append_cons hreads
  have hnamed : Lexeme.Reads (.behind ([] ++ (before ++ keyword))) r₁
      ([] ++ t :: (head ++ p.opening :: (p.body ++ p.closing :: rest))) := hreads
  obtain ⟨gap, name, r₂, rfl, -, hposition₂, hspells₂, hend, hreads⟩ :=
    Lexeme.exists_of_reads_append_cons hnamed
  have hparted := Grammar.partsWords_of_behindName hreads (by simp) (hend _ ht) hfollow
  obtain ⟨more, openBrace, r₃, rfl, -, hposition₃, hspells₃, -, hreads⟩ :=
    Lexeme.exists_of_reads_append_cons hreads
  have hbody := hreads
  obtain ⟨body, closeBrace, after, rfl, hbraces, hposition₄, hspells₄, -, -⟩ :=
    Lexeme.exists_of_reads_append_cons hreads
  rw [hkeyword] at hspells₁
  rw [ht] at hspells₂
  rw [hread.opening] at hspells₃
  rw [hread.closing] at hspells₄
  obtain ⟨rfl, hword⟩ := hspells₁.eq_of_identifier
  obtain ⟨rfl, hname⟩ := hspells₂.eq_of_identifier
  obtain rfl : openBrace = ['{'] := hspells₃.eq_of_symbol
  obtain rfl : closeBrace = ['}'] := hspells₄.eq_of_symbol
  obtain ⟨token, position⟩ := t
  subst ht hposition₂
  refine ⟨⟨before, text.toList, gap, p.table.name.toList, more, body, after⟩,
    ⟨?_, ?_, ?_, ?_, ?_, ?_⟩, ⟨htext, hword, rfl, hname, hparted, ?_, hbraces⟩⟩
  · simpa [Cut.text, Cut.head] using hr₁
  · simpa using hkeyword
  · exact hposition₁
  · simp [hhead]
  · simpa [Cut.head] using hposition₃
  · simpa [Cut.opened, Cut.head] using hposition₄
  · simpa [Cut.opened, Cut.head] using hbody

/-! ## Fields in a text -/

/-- The body of a table, parted at a token that names a field. -/
structure Cut.IsFieldAt (c : Cut) (t : Located) (field : String) (above below : List Char) : Prop where
  text : c.body = above ++ (field.toList ++ below)
  position : t.position = .behind (c.opened ++ above)

namespace Cut

variable {c : Cut} {source : String} {p : TablePlace} {rest : List Located} {t : Located}
  {field : String} {above below : List Char}

/-- A field stands at one place: its position says what is above it. -/
theorem IsFieldAt.unique {above' below' : List Char} (h : c.IsFieldAt t field above below)
    (h' : c.IsFieldAt t field above' below') : above = above' ∧ below = below' := by
  obtain ⟨rfl, hbelow⟩ := append_inj_of_behind _ (h.text.symm.trans h'.text)
    (h.position.symm.trans h'.position)
  exact ⟨rfl, List.append_cancel_left hbelow⟩

/-- The body that is read has the word that names a field in it. -/
theorem Reading.exists_field (h : c.Reading p rest) (hat : c.IsAt source p) (hread : p.IsRead rest)
    {f : Document.Field} (hfield : p.HasField t f) (ht : t.token = .identifier f.name) :
    ∃ above below, c.IsFieldAt t f.name above below ∧ IsIdentifier f.name.toList ∧
      ∀ d ∈ (below ++ '}' :: c.after).head?, PartsWords d := by
  obtain ⟨xs, ys, hbody, -, hfollow⟩ := hread.exists_field hfield
  have hreads := h.body
  rw [hbody, List.append_assoc, List.cons_append] at hreads
  obtain ⟨above, name, r, htext, -, hposition, hspells, hend, hreads⟩ :=
    Lexeme.exists_of_reads_append_cons hreads
  have hparted := Grammar.partsWords_of_behindName hreads (by simp) (hend _ ht) hfollow
  obtain ⟨below, brace, after, rfl, -, hposition', hspells', -, -⟩ :=
    Lexeme.exists_of_reads_append_cons hreads
  rw [ht] at hspells
  rw [hread.closing] at hspells'
  obtain ⟨rfl, hname⟩ := hspells.eq_of_identifier
  obtain rfl : brace = ['}'] := hspells'.eq_of_symbol
  -- the brace that closes the block is where it is in the text
  rw [List.append_assoc] at hposition'
  obtain ⟨hbody', hafter⟩ := append_inj_of_behind c.opened (by simpa using htext)
    (hat.closing.symm.trans hposition')
  rw [List.singleton_append, ← hafter] at hparted
  exact ⟨above, below, ⟨by simpa using hbody', hposition⟩, hname, hparted⟩

end Cut

/-! ## Braces in a text -/

theorem balance_filter (cs : List Char) : balance (cs.filter isBrace) = balance cs := by
  rw [balance, balance, List.count_filter (by decide), List.count_filter (by decide)]

/-- Only the braces of a text matter. -/
theorem balanced_of_filter {cs : List Char} (h : Balanced (cs.filter isBrace)) : Balanced cs where
  total := by rw [← balance_filter, h.total]
  begun xs ys hcs := by
    rw [← balance_filter]
    exact h.begun _ (ys.filter isBrace) (by rw [hcs, List.filter_append])

/-- No brace stands before the one that opens the block, and those inside are balanced, so that the
locator counts them right. -/
structure Cut.Counts (c : Cut) : Prop where
  noOpenBrace : '{' ∉ c.head
  noCloseBrace : '}' ∉ c.head
  balanced : Balanced c.body

/-- Up to the closing brace of the table all braces are tokens: no comment and no quoted text has
one. -/
def Cut.HasOwnBraces (c : Cut) (p : TablePlace) : Prop :=
  (c.head ++ c.body).countP isBrace = (braces (p.head ++ p.body)).length

/-- Where only tokens are braces, the grammar balances them. -/
theorem Cut.Reading.counts {c : Cut} {p : TablePlace} {rest : List Located} (h : c.Reading p rest)
    (hread : p.IsRead rest) (hown : c.HasOwnBraces p) : c.Counts := by
  have hsublist := h.braces_sublist
  have hlength := hsublist.length_le
  rw [HasOwnBraces, List.countP_append, braces_append, hread.braces_head, List.nil_append] at hown
  rw [← List.countP_eq_length_filter] at hlength
  have hhead : c.head.countP isBrace = 0 := by omega
  have hbody : braces p.body = c.body.filter isBrace :=
    hsublist.eq_of_length (by rw [← List.countP_eq_length_filter]; omega)
  have hnone := List.countP_eq_zero.1 hhead
  exact ⟨fun hmem => hnone _ hmem (by decide), fun hmem => hnone _ hmem (by decide),
    balanced_of_filter (hbody ▸ hread.balanced_body)⟩

end SchemaDiagram
