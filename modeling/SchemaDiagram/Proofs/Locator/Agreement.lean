import SchemaDiagram.Proofs.Compilation.Outcome
import SchemaDiagram.Proofs.Diagram.NodeName
import SchemaDiagram.Proofs.Diagram.Nodes
import SchemaDiagram.Proofs.Document.Grouping
import SchemaDiagram.Proofs.Locator.Cut
import SchemaDiagram.Proofs.Locator.Layout

/-!
# SchemaDiagram.Proofs.Locator.Agreement

Where the locator finds what was compiled.

The compiler reads tokens, the locator lines.  They agree about a table where its keyword and its
name begin a line, none before begins so, and the braces of the text are those of the tokens
(`Cut.IsFound`).  They agree about a field where its name begins a line, too, or is a word in a block
on one line (`Cut.OnOwnLine`, `Cut.OnOneLine`).  Where they do not, the texts at the end show.
-/

namespace SchemaDiagram

open Text Locator

/-! ## What is found -/

theorem line_behind (cs : List Char) : (Position.behind cs).line = 1 + cs.count '\n' := rfl

/-- Lines are counted from zero, positions from one. -/
theorem line_ofLines {rows : List (List Char)} {first last : Nat} {p q : Position}
    (hp : p.line = 1 + first) (hq : q.line = 1 + last) :
    (Span.ofLines rows first last).start.line = p.line ∧
      (Span.ofLines rows first last).finish.line = q.line := by
  rw [hp, hq]
  exact ⟨Nat.add_comm first 1, Nat.add_comm last 1⟩

/-- Only blanks stand before on the line that goes on behind a text. -/
def BeginsLine (before : List Char) : Prop :=
  ∃ p l, before = p ++ l ∧ WholeLines p ∧ '\n' ∉ l ∧ ∀ c ∈ l, isBlank c = true

namespace Cut

/-- The lines and the braces of the text let the locator find the table: its keyword is the first
word on a line, its name follows behind one space, no line before begins so, and the locator counts
the braces right. -/
structure IsFound (c : Cut) : Prop where
  begins : BeginsLine c.before
  space : c.gap = [' ']
  first : ∀ row ∈ lines c.before, declares (String.ofList c.name) row = false
  counts : c.Counts

/-- The name of a field is the first word on a line between the braces, and no line between begins
so. -/
structure OnOwnLine (field : String) (above below : List Char) : Prop where
  begins : BeginsLine above
  opened : '\n' ∈ above
  closed : '\n' ∈ below
  first : ∀ row ∈ (lines above).drop 1, ¬ lower field.toList <+: folded row

/-- The block of a table stands on one line, and blanks or braces are around the name of a field. -/
structure OnOneLine (c : Cut) (above below : List Char) : Prop where
  line : '\n' ∉ c.body
  closed : balance (firstLine c.after) ≤ 0
  before : ∀ d ∈ above.getLast?, isBlank d = true
  behind : ∀ d ∈ below.head?, isBlank d = true
  last : below = [] → '}' ∉ firstLine c.after

variable {c : Cut} {source : String} {p : TablePlace} {rest : List Located} {t : Located}
  {field : String} {above below : List Char}

/-- A table that the locator can find is the one it takes. -/
theorem IsFound.exists_opens (h : c.IsFound) (hat : c.IsAt source p) (hreading : c.Reading p rest) :
    ∃ q l, c.before = q ++ l ∧ '\n' ∉ l ∧
      Opens p.table.name source.toList q l c.head (c.body ++ '}' :: c.after) := by
  obtain ⟨q, l, hbefore, hwhole, hline, hblank⟩ := h.begins
  have hname : String.ofList c.name = p.table.name := by rw [hreading.name, String.ofList_toList]
  refine ⟨q, l, hbefore, hline, ?_, hwhole, hline, hblank, ?_, ?_, h.counts.noOpenBrace,
    h.counts.noCloseBrace⟩
  · rw [hat.text, Cut.text, hbefore, List.append_assoc]
  · intro row hrow
    rw [← hname]
    refine h.first row ?_
    rw [hbefore, lines_append hwhole]
    exact List.mem_append_left _ hrow
  · have hidentifier := hreading.name ▸ hreading.identifier
    have hdeclares := declares_firstLine hblank hline hreading.keyword
      (Lexeme.isBlank_of_isIdentifier hreading.word)
      (Lexeme.isBlank_of_isIdentifier hidentifier) (Lexeme.ne_nil_of_isIdentifier hidentifier)
      hreading.parted
    rw [head, h.space, hreading.name]
    simpa using hdeclares

/-- The lines of a table are those from its keyword to the brace that closes its block. -/
theorem IsFound.exists_table (h : c.IsFound) (hat : c.IsAt source p) (hreading : c.Reading p rest)
    (hafter : balance (firstLine c.after) ≤ 0) :
    ∃ span, table? (lines source.toList) p.table.name = some span ∧
      span.start.line = p.keyword.position.line ∧
      span.finish.line = p.closing.position.line := by
  obtain ⟨q, l, hbefore, hline, hopens⟩ := h.exists_opens hat hreading
  refine ⟨_, hopens.table?_eq h.counts.balanced hafter, line_ofLines ?_ ?_⟩
  · rw [hat.begins, line_behind, hbefore, List.count_append, List.count_eq_zero.2 hline]
    rfl
  · rw [hat.closing, line_behind, opened, hbefore]
    simp [List.count_append, List.count_eq_zero.2 hline, Nat.add_assoc]

/-- A field that begins a line of its own is on this line. -/
theorem IsFound.exists_own (h : c.IsFound) (hat : c.IsAt source p) (hreading : c.Reading p rest)
    (hfield : c.IsFieldAt t field above below) (hidentifier : IsIdentifier field.toList)
    (hparted : ∀ d ∈ (below ++ '}' :: c.after).head?, PartsWords d)
    (hown : OnOwnLine field above below) :
    ∃ span, field? (lines source.toList) p.table.name field = some span ∧
      span.start.line = t.position.line ∧ span.finish.line = t.position.line := by
  obtain ⟨q, l, hbefore, hline, hopens⟩ := h.exists_opens hat hreading
  obtain ⟨whole, indent, rfl, hwhole, hindent, hblank⟩ := hown.begins
  cases hwhole with
  | nil => exact absurd hown.opened hindent
  | @cons first rows hfirst hrows =>
    have hskip : ∀ row ∈ lines rows, ¬ lower field.toList <+: folded row := by
      intro row hrow
      refine hown.first row ?_
      rw [List.append_assoc, List.cons_append, lines_line hfirst, lines_append hrows]
      exact List.mem_append_left _ hrow
    have hnext : ∀ d ∈ below.head?, PartsWords d := by
      intro d hd
      refine hparted d ?_
      rw [List.head?_append, hd]
      rfl
    have hfound := hopens.field?_own h.counts.balanced (by simpa using hfield.text) hfirst hrows
      hskip hblank hindent (Lexeme.isBlank_of_isIdentifier hidentifier)
      (Lexeme.ne_nil_of_isIdentifier hidentifier) hnext hown.closed
    have hposition : t.position.line =
        1 + (q.count '\n' + c.head.count '\n' + 1 + rows.count '\n') := by
      rw [hfield.position, line_behind, opened, hbefore]
      simp [List.count_append, List.count_eq_zero.2 hline, List.count_eq_zero.2 hindent,
        List.count_eq_zero.2 hfirst]
      omega
    exact ⟨_, hfound, line_ofLines hposition hposition⟩

/-- A field in a block on one line is on this line. -/
theorem IsFound.exists_inline (h : c.IsFound) (hat : c.IsAt source p) (hreading : c.Reading p rest)
    (hfield : c.IsFieldAt t field above below) (hidentifier : IsIdentifier field.toList)
    (hinline : c.OnOneLine above below) :
    ∃ span, field? (lines source.toList) p.table.name field = some span ∧
      span.start.line = t.position.line ∧ span.finish.line = t.position.line := by
  obtain ⟨q, l, hbefore, hline, hopens⟩ := h.exists_opens hat hreading
  have habove : '\n' ∉ above := fun hmem =>
    hinline.line (hfield.text ▸ List.mem_append_left _ hmem)
  have hfound := hopens.field?_inline h.counts.balanced hinline.closed hfield.text hinline.line
    (Lexeme.isBlank_of_isIdentifier hidentifier) (Lexeme.ne_nil_of_isIdentifier hidentifier)
    hinline.before hinline.behind hinline.last
  have hposition : t.position.line = 1 + (q.count '\n' + c.head.count '\n') := by
    rw [hfield.position, line_behind, opened, hbefore]
    simp [List.count_append, List.count_eq_zero.2 hline, List.count_eq_zero.2 habove]
  exact ⟨_, hfound, line_ofLines hposition hposition⟩

end Cut

/-! ## Nodes -/

/-- For a node the locator finds the lines from one token to another. -/
def Locates (source id : String) (first last : Located) : Prop :=
  ∃ span, element? source (.ofNode id) = some span ∧
    span.start.line = first.position.line ∧ span.finish.line = last.position.line

/-- The locator finds the nodes of a table, its container, its header and its fields, where the
table is declared. -/
structure Cut.Agrees (c : Cut) (source : String) (p : TablePlace) : Prop where
  container : balance (firstLine c.after) ≤ 0 →
    Locates source (tableNode p.table.name) p.keyword p.closing
  header : balance (firstLine c.after) ≤ 0 →
    Locates source (headerNode p.table.name) p.keyword p.closing
  parted : ∀ t f, p.HasField t f → t.token = .identifier f.name →
    ∃ above below, c.IsFieldAt t f.name above below
  field : ∀ t f above below, p.HasField t f → t.token = .identifier f.name →
    f.name ≠ headerName → c.IsFieldAt t f.name above below →
    OnOwnLine f.name above below ∨ c.OnOneLine above below →
    Locates source (fieldNode p.table.name f.name) t t

/-- The table in a text that is parted so is located by its nodes, and its fields wherever they
stand on a line of their own or on the one line of the block. -/
theorem Cut.IsFound.agrees {c : Cut} {source : String} {p : TablePlace} {rest : List Located}
    (h : c.IsFound) (hat : c.IsAt source p) (hreading : c.Reading p rest) (hread : p.IsRead rest) :
    c.Agrees source p := by
  obtain ⟨hpoint, hne⟩ := isReadable_of_isIdentifier (hreading.name ▸ hreading.identifier)
  refine ⟨?_, ?_, ?_, ?_⟩
  · intro hafter
    rw [Locates, Element.ofNode_tableNode hpoint hne]
    exact h.exists_table hat hreading hafter
  · intro hafter
    rw [Locates, Element.ofNode_headerNode hpoint]
    exact h.exists_table hat hreading hafter
  · intro t f hf ht
    obtain ⟨above, below, hfield, -⟩ := hreading.exists_field hat hread hf ht
    exact ⟨above, below, hfield⟩
  · intro t f above below hf ht hh hfield hline
    obtain ⟨above', below', hfield', hidentifier, hparted⟩ := hreading.exists_field hat hread hf ht
    obtain ⟨rfl, rfl⟩ := hfield.unique hfield'
    rw [Locates, Element.ofNode_fieldNode hpoint, if_neg hh]
    rcases hline with hown | hinline
    · exact h.exists_own hat hreading hfield hidentifier hparted hown
    · exact h.exists_inline hat hreading hfield hidentifier hinline

/-! ## Documents -/

/-- The tables that are shown are declared in the document. -/
theorem exists_of_mem_tables {d : Document.Declarations} {t : Schema.Table}
    (h : t ∈ (Schema.ofDocument (some (.ofDeclarations d))).tables) :
    ∃ t' ∈ d.tables, t = .of t' := by
  rw [Schema.ofDocument, Schema.ofDocument?, Document.ofDeclarations] at h
  dsimp only at h
  cases hgroups : d.groups with
  | nil =>
    rw [hgroups] at h
    contradiction
  | cons g groups =>
    have hg : g ∈ d.groups := hgroups ▸ List.mem_cons_self
    rw [hgroups] at h
    obtain ⟨t', ht', rfl⟩ := List.mem_map.1 h
    rw [d.eq_inSchema_of_mem_groups hg] at ht'
    exact ⟨t', List.mem_of_mem_filter ht', rfl⟩

namespace Compilation

/-- What compiles is read to its end. -/
theorem exists_declarations_of_isOk {a : Appearance} {source : String}
    (h : (ofSource a source).isOk = true) :
    ∃ d rest, (Lexing.of source).fault = none ∧
      Grammar.declarations (Lexing.of source).tokens = .ok (d, rest) ∧
      ofSource a source = ofSchema a (Schema.ofDocument (some (.ofDeclarations d))) := by
  cases hs : Schema.ofSource source with
  | error e =>
    rw [ofSource_of_error a hs] at h
    contradiction
  | ok s =>
    rw [ofSource_of_ok a hs]
    rw [Schema.ofSource, Document.ofSource] at hs
    cases hfault : (Lexing.of source).fault with
    | some fault => simp [hfault, Except.map] at hs
    | none =>
      cases hd : Grammar.declarations (Lexing.of source).tokens with
      | error m => simp [hfault, Document.Declarations.ofTokens, hd, Except.map] at hs
      | ok r =>
        simp only [hfault, Document.Declarations.ofTokens, hd, Except.map, Except.ok.injEq] at hs
        exact ⟨r.1, r.2, rfl, rfl, congrArg _ hs.symm⟩

/-- **The locator finds what was compiled, where lines and tokens agree.**  Every node of a text that
compiles belongs to a table declared in it, and each field of such a table is named by a token.  A
table named by one word parts the text at its tokens in exactly one way.  If the lines and braces
there let the locator find the table (`Cut.IsFound`), it finds the table's container and header on
the lines from the keyword to the closing brace, unless more follows on the last line, and a field
on the line of its name, if that begins a line or the block is on one line. -/
theorem agrees_of_isOk (a : Appearance) {source : String} (h : (ofSource a source).isOk = true) :
    (∀ n ∈ (ofSource a source).nodes, ∃ p : TablePlace, p.IsIn (Lexing.of source).tokens ∧
      Diagram.Part (.of p.table) n) ∧
    ∀ p : TablePlace, p.IsIn (Lexing.of source).tokens →
      (∀ f ∈ p.table.fields, ∃ t, p.HasField t f) ∧
      (p.IsPlain → (∃ c : Cut, c.IsAt source p) ∧
        ∀ c : Cut, c.IsAt source p → (c.HasOwnBraces p → c.Counts) ∧
          (c.IsFound → c.Agrees source p)) := by
  obtain ⟨d, final, hfault, hdeclarations, hcompiled⟩ := exists_declarations_of_isOk h
  constructor
  · intro n hn
    rw [hcompiled] at hn
    obtain ⟨t, ht, hpart, -⟩ := Diagram.exists_part hn
    obtain ⟨t', ht', rfl⟩ := exists_of_mem_tables ht
    obtain ⟨p, hp, rfl⟩ := Grammar.exists_place hdeclarations ht'
    exact ⟨p, hp, hpart⟩
  · rintro p ⟨parts, rest, hruns, hread⟩
    refine ⟨fun f hf => hread.exists_hasField hf, fun hplain => ?_⟩
    have hreads : Lexeme.Reads .start source.toList
        (parts.flatMap (·.1) ++ (p.tokens ++ rest)) := ⟨hfault, hruns.eq_append⟩
    obtain ⟨c, hat, hreading⟩ := exists_cut hreads hread hplain
    refine ⟨⟨c, hat⟩, fun c' hat' => ?_⟩
    obtain rfl := hat.unique hat'
    exact ⟨hreading.counts hread, fun hfound => hfound.agrees hat hreading hread⟩

/-! ## Texts that are read otherwise -/

/-- A text with a table in which the name of one field begins with that of the next. -/
def longerSource : String := "Table t \x7b\n  id_old int\n  id int\n\x7d\n"

/-- The token that names the first field. -/
def longerToken : Located := ⟨.identifier "id_old", ⟨2, 3⟩⟩

/-- The token that names the second field. -/
def shorterToken : Located := ⟨.identifier "id", ⟨3, 3⟩⟩

/-- The first field. -/
def longerField : Document.Field := { name := "id_old", type := .expression "int" none }

/-- The second field. -/
def shorterField : Document.Field := { name := "id", type := .expression "int" none }

/-- The place of the table. -/
def longerPlace : TablePlace where
  table := { name := "t", fields := [longerField, shorterField] }
  keyword := ⟨.identifier "Table", ⟨1, 1⟩⟩
  head := [⟨.identifier "t", ⟨1, 7⟩⟩]
  opening := ⟨.symbol .openBrace, ⟨1, 9⟩⟩
  items := [([longerToken, ⟨.identifier "int", ⟨2, 10⟩⟩], .field longerField []),
    ([shorterToken, ⟨.identifier "int", ⟨3, 6⟩⟩], .field shorterField [])]
  closing := ⟨.symbol .closeBrace, ⟨4, 1⟩⟩

/-- The text is read as that table. -/
theorem isIn_longerPlace : longerPlace.IsIn (Lexing.of longerSource).tokens := by
  have htokens : (Lexing.of longerSource).tokens = longerPlace.tokens ++ [] := by decide +kernel
  have hlast : Parser.Runs (Grammar.tableItem none "t")
      ([shorterToken, ⟨.identifier "int", ⟨3, 6⟩⟩] ++ [longerPlace.closing])
      [([shorterToken, ⟨.identifier "int", ⟨3, 6⟩⟩], .field shorterField [])]
      [longerPlace.closing] :=
    .cons (by decide +kernel) .nil
  have hitems : Parser.Runs (Grammar.tableItem none "t")
      ([longerToken, ⟨.identifier "int", ⟨2, 10⟩⟩] ++
        ([shorterToken, ⟨.identifier "int", ⟨3, 6⟩⟩] ++ [longerPlace.closing]))
      longerPlace.items [longerPlace.closing] :=
    .cons (by decide +kernel) hlast
  exact ⟨[], [], htokens ▸ .nil,
    ⟨by decide +kernel, by decide +kernel, rfl, hitems, by decide, rfl⟩⟩

/-- The text, parted at the table. -/
def longerCut : Cut where
  before := []
  keyword := "Table".toList
  gap := [' ']
  name := ['t']
  more := [' ']
  body := "\n  id_old int\n  id int\n".toList
  after := ['\n']

/-- The table of such a text is found, and its first field. -/
theorem locates_longer :
    (ofSource {} longerSource).isOk = true ∧
      Locates longerSource "tparent" longerPlace.keyword longerPlace.closing ∧
      Locates longerSource "t.header" longerPlace.keyword longerPlace.closing ∧
      Locates longerSource "t.id_old" longerToken longerToken := by
  have hok : (ofSource {} longerSource).isOk = true := by decide +kernel
  have hat : longerCut.IsAt longerSource longerPlace := by
    refine ⟨?_, ?_, ?_, ?_, ?_, ?_⟩ <;> decide +kernel
  obtain ⟨hcounts, hagrees⟩ :=
    (((agrees_of_isOk {} hok).2 longerPlace isIn_longerPlace).2 ⟨rfl, rfl⟩).2 longerCut hat
  have hfound : longerCut.IsFound :=
    ⟨⟨[], [], rfl, .nil, by simp, by simp⟩, rfl, by simp [longerCut, lines], hcounts rfl⟩
  obtain ⟨hcontainer, hheader, -, hfield⟩ := hagrees hfound
  have hnamed : longerCut.IsFieldAt longerToken "id_old" "\n  ".toList
      " int\n  id int\n".toList := ⟨rfl, by decide⟩
  have hline : WholeLines ([] ++ '\n' :: []) := .cons List.not_mem_nil .nil
  have hblank : [' ', ' '].all isBlank = true := by decide
  have hown : Cut.OnOwnLine "id_old" "\n  ".toList " int\n  id int\n".toList :=
    ⟨⟨_, _, rfl, hline, by decide, List.all_eq_true.1 hblank⟩, by decide, by decide, by decide⟩
  exact ⟨hok, hcontainer (by decide), hheader (by decide),
    hfield longerToken longerField _ _ ⟨_, _, List.mem_cons_self⟩ rfl (by decide) hnamed (.inl hown)⟩

/-- The names of tables are not quoted.  They differ in more than case, and so do those of the fields
of a table, none of which is called `header`. -/
structure HasDistinctNames (source : String) (s : Schema) : Prop where
  unquoted : (Lexing.of source).tokens.all (·.token.quoted?.isNone) = true
  tables : (s.tables.map fun t => lower t.name.toList).Nodup
  fields : ∀ t ∈ s.tables, (t.fields.map fun f => lower f.name.toList).Nodup
  header : ∀ t ∈ s.tables, ∀ f ∈ t.fields, f.name ≠ headerName

/-- Other texts that the locator reads otherwise than the compiler, each with a node and the first
and the last line on which it is declared. -/
def misread : List (String × String × Nat × Nat) :=
  [ -- two blanks stand between keyword and name
    ("Table  t \x7b\n\x7d\n", "tparent", 1, 2),
    -- the name of a schema stands between them
    ("Table public.t \x7b\n\x7d\n", "tparent", 1, 2),
    -- the keyword is not the first word on its line
    ("Table s \x7b \x7d Table t \x7b \x7d\n", "tparent", 1, 1),
    -- a line before begins with the name
    ("Table tt \x7b\n\x7d\nTable t \x7b\n\x7d\n", "tparent", 3, 4),
    -- a quoted text has a brace
    ("Table t \x7b\n  a int [note: '\x7d']\n\x7d\n", "tparent", 1, 3),
    -- another block opens where the block closes
    ("Table t \x7b\n\x7d Table s \x7b\n\x7d\n", "tparent", 1, 2),
    -- the field stands on the line of the opening brace
    ("Table t \x7b a int\n\x7d\n", "t.a", 1, 1),
    -- it stands on the line of the closing brace
    ("Table t \x7b\n a int \x7d\n", "t.a", 2, 2),
    -- its name is quoted
    ("Table t \x7b\n  \"a\" int\n\x7d\n", "t.a", 2, 2),
    -- no blank follows its name in a block on one line
    ("Table t \x7b a[pk] \x7d\n", "t.a", 1, 1) ]

/-- Names that differ are not enough: of two fields the locator takes the first line that begins
with the name it looks for. -/
theorem not_locates_shorter :
    (¬ ∀ (source : String) (s : Schema), Schema.ofSource source = .ok s →
      HasDistinctNames source s → ∀ p : TablePlace, p.IsIn (Lexing.of source).tokens →
        Locates source (tableNode p.table.name) p.keyword p.closing ∧
        Locates source (headerNode p.table.name) p.keyword p.closing ∧
        ∀ t f, p.HasField t f → Locates source (fieldNode p.table.name f.name) t t) ∧
    ∀ r ∈ misread, (ofSource {} r.1).isOk = true ∧
      r.2.1 ∈ (ofSource {} r.1).nodes.map (·.id) ∧
      (element? r.1 (.ofNode r.2.1)).map (fun s => (s.start.line, s.finish.line)) ≠ some r.2.2 := by
  refine ⟨fun h => ?_, by decide +kernel⟩
  have hs : Schema.ofSource longerSource =
      .ok { tables := [⟨"t", none, [⟨"id_old", "int", none⟩, ⟨"id", "int", none⟩]⟩] } := by
    decide +kernel
  have hnames : HasDistinctNames longerSource
      { tables := [⟨"t", none, [⟨"id_old", "int", none⟩, ⟨"id", "int", none⟩]⟩] } :=
    ⟨by decide +kernel, by decide, by decide, by decide⟩
  have hfield : longerPlace.HasField shorterToken shorterField :=
    ⟨_, _, List.mem_cons_of_mem _ List.mem_cons_self⟩
  obtain ⟨span, hspan, hline, -⟩ := (h _ _ hs hnames _ isIn_longerPlace).2.2 _ _ hfield
  have hfound : (element? longerSource (.ofNode "t.id")).map (·.start.line) = some 2 := by
    decide +kernel
  have hspan' : some span.start.line = some 2 := by
    rw [← hfound]
    exact (congrArg (Option.map (·.start.line)) hspan).symm
  rw [hline] at hspan'
  exact absurd hspan' (by decide)

end Compilation

end SchemaDiagram
