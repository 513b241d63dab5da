import SchemaDiagram.Proofs.Diagram.Elsewhere
import SchemaDiagram.Proofs.Document.RoundTrip
import SchemaDiagram.Proofs.Token.Lines

/-!
# SchemaDiagram.Proofs.Document.Listing

Tables as they are usually written, and what is read of them.

1. A listing is a list of tables.  The names in it are words without quotes, and a field has a name
   and possibly a type, nothing else.
2. `rows` are the lines that a listing is written in:

   ```
   Table users {
     id int
     name
   }
   ```

3. A text with these lines declares the tables of the listing (`ofSource_of_lines`), however the
   lines end.
-/

namespace SchemaDiagram.Listing

open SchemaDiagram.Parser Grammar
open Outline (Word Below below_of_row)

/-! ## Listings -/

/-- A field of a table. -/
structure Field where
  name : Word
  type : Option Word := none

/-- A table. -/
structure Table where
  name : Word
  fields : List Field

namespace Field

variable (f : Field)

/-- The line of a field. -/
def row : List Char :=
  "  ".toList ++ f.name.text.toList ++
    match f.type with
    | some type => ' ' :: type.text.toList
    | none => []

/-- The tokens of a field. -/
def tokens : List Token :=
  .identifier f.name.text ::
    match f.type with
    | some type => [.identifier type.text]
    | none => []

/-- The field as it is declared. -/
def meaning : Document.Field where
  name := f.name.text
  type :=
    match f.type with
    | some type => .expression type.text none
    | none => .absent

end Field

namespace Table

variable (t : Table)

/-- The first line of a table. -/
def header : List Char := "Table ".toList ++ t.name.text.toList ++ " \x7b".toList

/-- The lines of a table. -/
def rows : List (List Char) := t.header :: (t.fields.map Field.row ++ [['}']])

/-- The tokens of the first line. -/
def headerTokens : List Token := [.identifier "Table", .identifier t.name.text, .symbol .openBrace]

/-- The tokens of a table, line by line. -/
def tokens : List (List Token) :=
  t.headerTokens :: (t.fields.map Field.tokens ++ [[.symbol .closeBrace]])

/-- The table as it is declared. -/
def meaning : Document.Table := { name := t.name.text, fields := t.fields.map (·.meaning) }

end Table

/-- The lines of a listing. -/
def rows (ts : List Table) : List (List Char) := ts.flatMap Table.rows

/-- The tokens of a listing, line by line. -/
def tokens (ts : List Table) : List (List Token) := ts.flatMap Table.tokens

/-! ## Lines and tokens -/

/-- A word can be written, since it is an identifier. -/
theorem isWritable_word (w : Word) : (Token.identifier w.text).IsWritable := w.isIdentifier

/-- The line of a field is its tokens behind two blanks, with a blank in front of the type if there
is one. -/
theorem isLineOf_field (f : Field) : IsLineOf f.tokens f.row where
  text := by
    have hspace : Text.isBlank ' ' = true ∧ ' ' ≠ '\n' := by decide
    refine ⟨"  ".toList, ?_, List.forall_mem_cons.2 ⟨hspace, List.forall_mem_singleton.2 hspace⟩⟩
    obtain ⟨name, type⟩ := f
    cases type <;> simp [Field.row, Field.tokens, Token.join, Token.write]
  isWritable := by
    obtain ⟨name, type⟩ := f
    cases type <;> simp [Field.tokens, isWritable_word]

/-- The first line of a table is its keyword, its name and a brace. -/
theorem isLineOf_header (t : Table) : IsLineOf t.headerTokens t.header where
  text := ⟨[], List.append_assoc "Table ".toList t.name.text.toList " \x7b".toList, by simp⟩
  isWritable := by
    have hkeyword : (Token.identifier "Table").IsWritable :=
      Outline.isIdentifier_of_isPlainWord (by decide)
    rw [Table.headerTokens, List.forall_mem_cons, List.forall_mem_cons, List.forall_mem_singleton]
    exact ⟨hkeyword, isWritable_word t.name, trivial⟩

/-- The last line of a table is a brace. -/
theorem isLineOf_closing : IsLineOf [.symbol .closeBrace] ['}'] where
  text := ⟨[], rfl, by simp⟩
  isWritable := by simp [Token.IsWritable]

/-- Each line of a listing is a line of its tokens. -/
theorem forall₂_rows (ts : List Table) : List.Forall₂ IsLineOf (tokens ts) (rows ts) := by
  induction ts with
  | nil => exact .nil
  | cons t ts ih =>
    have hfields : List.Forall₂ IsLineOf (t.fields.map Field.tokens) (t.fields.map Field.row) := by
      rw [List.forall₂_map_left_iff, List.forall₂_map_right_iff, List.forall₂_same]
      exact fun f _ => isLineOf_field f
    have hbody := List.rel_append hfields (.cons isLineOf_closing .nil)
    exact List.rel_append (.cons (isLineOf_header t) hbody) ih

/-! ## What is read -/

variable {n : Nat} {ts mid rest : List Located}

/-- A word is read as a type that is nothing but this word. -/
theorem meaning_word (w : Word) :
    (Outline.FieldType.expression { first := w }).meaning = .expression w.text none := by
  simp [Outline.FieldType.meaning, Outline.TypeExpression.meaning,
    Outline.TypeExpression.argumentText]

/-- Behind the name of a field its type is read, up to the next line, and no symbol stands there but
a closing brace. -/
theorem exists_of_field_row {f : Field} (h : Row n f.tokens ts rest) (hrest : Below n rest) :
    ∃ p after, ts = ⟨.identifier f.name.text, p⟩ :: after ∧
      fieldType (some p.line) after = .ok (f.meaning.type, rest) ∧
      ∀ s, s ≠ .closeBrace → Stops (is s) after := by
  obtain ⟨p, after, rfl, rfl, hafter⟩ := row_cons.1 h
  refine ⟨p, after, rfl, ?_⟩
  have hnone : Row p.line (Outline.Setting.listTokens []) rest rest := row_nil.2 rfl
  have hends := Outline.endsType_of_row hnone hrest
  obtain ⟨name, type⟩ := f
  cases type with
  | none =>
    obtain rfl := row_nil.1 hafter
    exact ⟨fieldType_of_not hends.not_beginsType, fun s hs => hrest.1.stops hs⟩
  | some type =>
    have htype := Outline.fieldType_of_row (t := .expression { first := type }) hafter hends
    rw [meaning_word] at htype
    exact ⟨htype, fun s _ => Outline.stops_of_row hafter rfl⟩

/-- A field is an item, whatever its name is: what makes a keyword of a name does not follow. -/
theorem tableItem_of_row {f : Field} (schemaName : Option String) (tableName : String)
    (h : Row n f.tokens ts rest) (hrest : Below n rest) :
    tableItem schemaName tableName ts = .ok (.field f.meaning [], rest) := by
  obtain ⟨p, after, rfl, htype, hstops⟩ := exists_of_field_row h hrest
  have hnot (k : Keyword) {s : Symbol} (hs : s ≠ .closeBrace) :
      ¬ BeginsBoth (·.isKeyword k) (is s) (⟨.identifier f.name.text, p⟩ :: after) :=
    not_beginsBoth_cons (hstops s hs)
  have hbracket : Stops (is .openBracket) rest := hrest.1.stops (by decide)
  have hfield : field schemaName tableName (⟨.identifier f.name.text, p⟩ :: after) =
      .ok ((f.meaning, []), rest) := by
    rw [field, line?_then, bind_of_ok (name_of_some rfl)]
    show (fieldType (some p.line) >>= _) after = _
    rw [bind_of_ok htype, bind_of_ok (Outline.settings_of_stops hbracket)]
    rfl
  rw [tableItem, acceptBoth_then_of_not (hnot .note (by decide)),
    acceptBoth_then_of_not (hnot .note (by decide)),
    acceptBoth_then_of_not (hnot .indexes (by decide)), bind_of_ok hfield]
  rfl

/-- The lines of a table up to its last one are read as its fields, in order. -/
theorem tableBody_of_rows {fields : List Field} (schemaName : Option String) (tableName : String)
    (h : Rows n (fields.map Field.tokens ++ [[.symbol .closeBrace]]) ts rest) :
    tableBody schemaName tableName ts =
      .ok (fields.map fun f => .field f.meaning [], rest) := by
  refine Outline.manyUntil_of_rows (fun f => ⟨_, _, rfl, .inl ⟨f.name.text, rfl⟩⟩)
    (fun f hrow hrest => ?_) h
  have hitem := tableItem_of_row schemaName tableName hrow hrest
  obtain ⟨p, after, rfl, _⟩ := row_cons.1 hrow
  exact hitem

section

variable (fields : List Field)

/-- There is no note among the items of a listing. -/
theorem filterMap_note? : (fields.map fun f => TableItem.field f.meaning []).filterMap (·.note?) =
    [] := by
  simp [TableItem.note?]

/-- All items of a listing are fields. -/
theorem filterMap_field? : (fields.map fun f => TableItem.field f.meaning []).filterMap (·.field?) =
    fields.map (·.meaning) := by
  simp [TableItem.field?]

/-- No item of a listing brings a reference. -/
theorem flatMap_references :
    (fields.map fun f => TableItem.field f.meaning []).flatMap (·.references) = [] := by
  simp [TableItem.references]

end

/-- The lines of a table are read as its declaration, and nothing more is read. -/
theorem declaration_of_rows {t : Table} (h : Rows n t.tokens ts rest) :
    declaration ts = .ok ({ tables := [t.meaning] }, rest) := by
  obtain ⟨mid, hheader, hbody⟩ := h
  simp only [Table.headerTokens, row_cons, row_nil] at hheader
  obtain ⟨p, _, rfl, _, q, _, rfl, _, r, _, rfl, _, rfl⟩ := hheader
  have hkeyword : (Token.identifier "Table").isKeyword .table = true := by decide
  have hname : qualifiedName .tableName
      (⟨.identifier t.name.text, q⟩ :: ⟨.symbol .openBrace, r⟩ :: mid) =
        .ok ((none, t.name.text), ⟨.symbol .openBrace, r⟩ :: mid) := by
    rw [qualifiedName, bind_of_ok (name_of_some rfl), accept_then_of_stops (stops_cons.2 rfl)]
    rfl
  have halias : tableAlias (⟨.symbol .openBrace, r⟩ :: mid) =
      .ok (none, ⟨.symbol .openBrace, r⟩ :: mid) := by
    rw [tableAlias, accept_then_of_stops (stops_cons.2 rfl)]
    rfl
  rw [declaration, accept_then_of_true hkeyword, table, bind_of_ok hname]
  show (tableAlias >>= _) _ = _
  rw [bind_of_ok halias, bind_of_ok (Outline.settings_of_stops (stops_cons.2 rfl)),
    bind_of_ok (symbol_of_eq rfl), bind_of_ok (tableBody_of_rows none t.name.text hbody),
    filterMap_note?, filterMap_field?, flatMap_references]
  rfl

/-- Each table is a declaration, up to the end of the tokens. -/
theorem declarations_of_rows {tables : List Table} (h : Rows n (tokens tables) ts []) :
    declarations ts = .ok ({ tables := tables.map (·.meaning) }, []) := by
  have hall : repeatUntil List.isEmpty declaration advances_declaration ts =
      .ok (tables.map fun t => { tables := [t.meaning] }, []) := by
    induction tables generalizing n ts with
    | nil =>
      obtain rfl : ts = [] := h
      exact repeatUntil_of_stop rfl
    | cons t tables ih =>
      obtain ⟨mid, ht, htables⟩ := rows_append.1 h
      have hne : ts.isEmpty = false := by
        obtain ⟨_, hheader, _⟩ := ht
        obtain ⟨p, _, rfl, _⟩ := row_cons.1 hheader
        rfl
      rw [repeatUntil_of_ok hne (declaration_of_rows ht), bind_of_ok (ih htables)]
      rfl
  rw [declarations, bind_of_ok hall]
  have hconcat : Document.Declarations.concat (tables.map fun t => { tables := [t.meaning] }) =
      { tables := tables.map (·.meaning) } := by
    clear h hall
    induction tables with
    | nil => rfl
    | cons t tables ih =>
      rw [List.map_cons, Document.Declarations.concat, ih]
      rfl
  rw [hconcat]
  rfl

/-! ## What is shown -/

/-- All tables of a listing are in the default schema. -/
theorem inSchema_meaning (tables : List Table) :
    ({ tables := tables.map (·.meaning) } : Document.Declarations).inSchema Document.defaultSchema =
      { tables := tables.map (·.meaning) } := by
  have hall : (tables.map (·.meaning)).filter
      (Document.schemaOf ·.schemaName == Document.defaultSchema) = tables.map (·.meaning) := by
    rw [List.filter_eq_self]
    intro t ht
    obtain ⟨t, _, rfl⟩ := List.mem_map.1 ht
    rfl
  simp only [Document.Declarations.inSchema, hall, List.filter_nil]

/-- A text with the lines of a listing shows its tables, and nothing else. -/
theorem ofSource_of_lines {source : String} {tables : List Table}
    (h : Text.lines source.toList = rows tables) :
    Schema.ofSource source = .ok ⟨tables.map fun t => .of t.meaning, []⟩ := by
  obtain ⟨ts, hreads, hrows⟩ := exists_reads_of_lines (forall₂_rows tables) 1 h
  obtain ⟨htokens, hfault⟩ := Lexing.of_of_reads hreads
  rw [Schema.ofSource, Document.ofSource]
  simp only [hfault, htokens, Document.Declarations.ofTokens, declarations_of_rows hrows]
  change Except.ok (Schema.ofDocument (some (Document.ofDeclarations _))) = _
  rw [Schema.ofDocument_eq, Document.shown_ofDeclarations, inSchema_meaning, Schema.ofGroup,
    List.map_map]
  rfl

end SchemaDiagram.Listing
