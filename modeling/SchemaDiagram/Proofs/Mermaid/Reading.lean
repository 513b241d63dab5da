import SchemaDiagram.Proofs.Diagram.Elsewhere
import SchemaDiagram.Proofs.Document.Formed
import SchemaDiagram.Proofs.Mermaid.Line

/-!
# SchemaDiagram.Proofs.Mermaid.Reading

A diagram can be read back.

The reader goes through the lines of a text.  A header opens a table, fields are added to it, and
its closing line ends it; references stand outside of tables (`Reader.next`).  Of a schema whose
tables have names that need no quotes it finds the tables, their fields and the references, all in
order (`IsPlain.read?_render`).  The names and types of fields may be any text, and of these it
finds what is written: the text with its blanks squeezed.

The symbols of a reference come back since there are but two of them, and no type is empty since a
blank one has a label instead.
-/

namespace SchemaDiagram

namespace Schema

/-! ## Schemas of source texts -/

/-- A label is never blank. -/
theorem not_isAllBlank_label (type : Document.FieldType) :
    Text.isAllBlank type.label.toList = false := by
  have hname (name : String) : Text.isAllBlank
      (if Text.isAllBlank name.toList then noTypeLabel else name).toList = false := by
    split
    · decide
    · rename_i hblank
      exact Bool.eq_false_iff.2 hblank
  cases type with
  | expression name _ | quoted name => exact hname name
  | absent => decide

variable {source : String} {s : Schema}

/-- A schema that is read off a text is the default one of its declarations. -/
theorem exists_declares_of_ofSource (h : ofSource source = .ok s) :
    ∃ d, Document.Declares source d ∧ s = ofGroup (Document.ofDeclarations d).shown := by
  unfold ofSource at h
  cases hdoc : Document.ofSource source with
  | error e =>
    rw [hdoc] at h
    contradiction
  | ok doc =>
    rw [hdoc] at h
    obtain ⟨d, hd, rfl⟩ := Document.exists_declares hdoc
    cases h
    exact ⟨d, hd, ofDocument_eq _⟩

/-- The symbols of a reference that is read off a text are those of one relation. -/
theorem exists_symbols_of_ofSource (h : ofSource source = .ok s) :
    ∀ r ∈ s.references, ∃ relation : Document.Relation,
      (r.source.symbol, r.target.symbol) = relation.symbols := by
  obtain ⟨d, hd, rfl⟩ := exists_declares_of_ofSource h
  intro r hr
  obtain ⟨declared, hmem, rfl⟩ := List.mem_map.1 hr
  rw [Document.shown_ofDeclarations] at hmem
  have hformed := Grammar.isFormed_declarations hd.declarations
  exact (hformed.references declared (List.mem_of_mem_filter hmem)).exists_symbols

/-- No field that is read off a text is labelled with a blank type. -/
theorem not_isAllBlank_typeLabel (h : ofSource source = .ok s) :
    ∀ t ∈ s.tables, ∀ f ∈ t.fields, Text.isAllBlank f.typeLabel.toList = false := by
  obtain ⟨d, -, rfl⟩ := exists_declares_of_ofSource h
  intro t ht f hf
  obtain ⟨u, -, rfl⟩ := List.mem_map.1 ht
  obtain ⟨declared, -, rfl⟩ := List.mem_map.1 hf
  exact not_isAllBlank_label declared.type

end Schema

namespace Mermaid

/-! ## Drawings -/

/-- A text as a diagram has it: without blanks around it, and a low line for each run of blanks in
it. -/
def underscored (s : String) : String := String.ofList (Text.squeeze (Text.trim s.toList))

/-- A table of a diagram, with the type and the name of each field. -/
structure DrawnTable where
  name : String
  fields : List (String × String) := []
  deriving DecidableEq, Repr

/-- What a diagram shows.  A reference has the name of a table and a symbol at each end. -/
structure Drawing where
  tables : List DrawnTable := []
  references : List ((String × String) × (String × String)) := []
  deriving DecidableEq, Repr

/-- A table as it is drawn. -/
def DrawnTable.of (t : Schema.Table) : DrawnTable :=
  ⟨t.name, t.fields.map fun f => (underscored f.typeLabel, underscored f.name)⟩

/-- A schema as it is drawn. -/
def Drawing.of (s : Schema) : Drawing where
  tables := s.tables.map .of
  references := s.references.map fun r =>
    ((r.source.tableName, r.source.symbol), (r.target.tableName, r.target.symbol))

/-! ## The reader -/

/-- What has been read: a drawing, and the table that is open. -/
structure Reader extends Drawing where
  current : Option DrawnTable := none
  deriving DecidableEq, Repr

/-- Reads one more line. -/
def Reader.next (r : Reader) (l : Line) : Option Reader :=
  match r.current, l with
  | none, .header name => some { r with current := some { name } }
  | some t, .field type name =>
    some { r with current := some { t with fields := t.fields ++ [(type, name)] } }
  | some t, .closing => some { r with tables := r.tables ++ [t], current := none }
  | none, .reference source target =>
    some { r with references := r.references ++ [(source, target)] }
  | _, _ => none

/-- The drawing of lines: a title, and tables and references behind it. -/
def drawing? : List Line → Option Drawing
  | .title :: lines => do
    let r ← lines.foldlM Reader.next {}
    if r.current.isNone then some r.toDrawing else none
  | _ => none

/-- Reads a diagram line by line. -/
def read? (text : String) : Option Drawing := do
  let lines ← (Text.lines text.toList).mapM Line.read?
  drawing? lines

/-! ## Reading the lines of a drawing -/

/-- The lines of a table. -/
def DrawnTable.lines (t : DrawnTable) : List Line :=
  .header t.name :: (t.fields.map fun f => .field f.1 f.2) ++ [.closing]

/-- The lines of a drawing behind its title. -/
def Drawing.body (d : Drawing) : List Line :=
  d.tables.flatMap (·.lines) ++ d.references.map fun r => .reference r.1 r.2

section

variable (tables : List DrawnTable) (references : List ((String × String) × (String × String)))

/-- A line that can be read is read, and the others behind it. -/
theorem foldlM_cons {r r' : Reader} {l : Line} (h : r.next l = some r') (ls : List Line) :
    (l :: ls).foldlM Reader.next r = ls.foldlM Reader.next r' := by
  rw [List.foldlM_cons, h]
  rfl

/-- Fields are added to the table that is open. -/
theorem foldlM_fields (t : DrawnTable) (fs : List (String × String)) :
    (fs.map fun f => Line.field f.1 f.2).foldlM Reader.next ⟨⟨tables, references⟩, some t⟩ =
      some ⟨⟨tables, references⟩, some { t with fields := t.fields ++ fs }⟩ := by
  induction fs generalizing t with
  | nil => simp
  | cons f fs ih =>
    rw [List.map_cons, foldlM_cons rfl, ih, List.append_assoc, List.singleton_append]

/-- The lines of a table are one more table. -/
theorem foldlM_table (t : DrawnTable) :
    t.lines.foldlM Reader.next ⟨⟨tables, references⟩, none⟩ =
      some ⟨⟨tables ++ [t], references⟩, none⟩ := by
  rw [DrawnTable.lines, List.cons_append, foldlM_cons rfl, List.foldlM_append, foldlM_fields]
  rfl

/-- The lines of tables are these tables, behind those that were read before. -/
theorem foldlM_tables (ts : List DrawnTable) :
    (ts.flatMap (·.lines)).foldlM Reader.next ⟨⟨tables, references⟩, none⟩ =
      some ⟨⟨tables ++ ts, references⟩, none⟩ := by
  induction ts generalizing tables with
  | nil => simp
  | cons t ts ih =>
    rw [List.flatMap_cons, List.foldlM_append, foldlM_table, Option.bind_eq_bind, Option.bind_some,
      ih, List.append_assoc, List.singleton_append]

/-- The lines of references are these references, outside of any table. -/
theorem foldlM_references (rs : List ((String × String) × (String × String))) :
    (rs.map fun r => Line.reference r.1 r.2).foldlM Reader.next ⟨⟨tables, references⟩, none⟩ =
      some ⟨⟨tables, references ++ rs⟩, none⟩ := by
  induction rs generalizing references with
  | nil => simp
  | cons r rs ih =>
    rw [List.map_cons, foldlM_cons rfl, ih, List.append_assoc, List.singleton_append]

end

/-- The lines of a drawing are read as the drawing. -/
theorem drawing?_body (d : Drawing) : drawing? (.title :: d.body) = some d := by
  have hrun : d.body.foldlM Reader.next {} = some { d with } := by
    rw [Drawing.body, List.foldlM_append, foldlM_tables, Option.bind_eq_bind, Option.bind_some,
      foldlM_references]
    rfl
  rw [drawing?, hrun]
  rfl

/-! ## Writing the lines of a drawing -/

/-- What is written of a text are its words with low lines between them. -/
theorem oneWord_eq (s : String) : oneWord s = underscored s := by
  rw [oneWord, underscored, ← Text.intercalate_words, ← String.toList_inj,
    String.toList_intercalate, List.map_map, String.toList_ofList]
  simp [Function.comp_def]

/-- What is put in place of blanks is not blank. -/
theorem isSolid_underscored (s : String) : IsSolid (underscored s) := by
  rw [IsSolid, underscored, String.toList_ofList]
  exact Text.isBlank_of_mem_squeeze _

/-- A text that is not blank leaves something when it is squeezed. -/
theorem underscored_ne_empty {s : String} (h : Text.isAllBlank s.toList = false) :
    underscored s ≠ "" := by
  intro hempty
  have hnil : Text.squeeze (Text.trim s.toList) = [] := String.ofList_eq_empty_iff.1 hempty
  rw [Text.squeeze_eq_nil, Text.trim_eq_nil, h] at hnil
  contradiction

/-- There are no blanks in an identifier. -/
theorem isSolid_of_isIdentifier {name : String} (h : IsIdentifier name.toList) : IsSolid name :=
  Lexeme.isBlank_of_isIdentifier h

/-- A schema whose drawing can be read back: tables are named by identifiers, and symbols are those
of relations. -/
structure IsPlain (s : Schema) : Prop where
  tables : ∀ t ∈ s.tables, IsIdentifier t.name.toList
  sources : ∀ r ∈ s.references, IsIdentifier r.source.tableName.toList
  targets : ∀ r ∈ s.references, IsIdentifier r.target.tableName.toList
  exists_symbols : ∀ r ∈ s.references, ∃ relation : Document.Relation,
    (r.source.symbol, r.target.symbol) = relation.symbols

/-- An identifier needs no quotes. -/
theorem entity_of_isIdentifier {name : String} (h : IsIdentifier name.toList) :
    entity name = name := by
  have hall : name.toList.all isEntityChar = true := by
    rw [List.all_eq_true]
    intro c hc
    have hname := Lexeme.isNameChar_of_isIdentifier h c hc
    rw [Lexeme.isNameChar] at hname
    rw [isEntityChar, hname, Bool.true_or]
  rw [entity, if_pos hall]

/-- What is written of a table are the lines of its drawing. -/
theorem tableLines_eq {t : Schema.Table} (h : IsIdentifier t.name.toList) :
    tableLines t = (DrawnTable.of t).lines.map Line.text := by
  have hfields : t.fields.map (fun f => "    " ++ oneWord f.typeLabel ++ " " ++ oneWord f.name) =
      ((DrawnTable.of t).fields.map fun f => Line.field f.1 f.2).map Line.text := by
    rw [DrawnTable.of, List.map_map, List.map_map]
    refine List.map_congr_left fun f _ => ?_
    rw [oneWord_eq, oneWord_eq]
    exact (Line.text_field _ _).symm
  rw [tableLines, entity_of_isIdentifier h, hfields, ← Line.text_header, DrawnTable.lines,
    List.map_append, List.map_cons]
  rfl

/-- Every line of a table can be read back if the table is named by an identifier: its name is
without blanks for that, and the types and names of its fields since they are squeezed. -/
theorem isLegible_of_mem_lines {t : Schema.Table} (h : IsIdentifier t.name.toList) {l : Line}
    (hl : l ∈ (DrawnTable.of t).lines) : l.IsLegible := by
  rw [DrawnTable.lines, List.mem_append, List.mem_cons, List.mem_map] at hl
  rcases hl with (rfl | ⟨_, hfield, rfl⟩) | hl
  · refine ⟨?_, trivial⟩
    simp only [Line.parts, List.forall_mem_cons]
    exact ⟨by decide, by decide, isSolid_of_isIdentifier h, by decide, by simp⟩
  · obtain ⟨f, -, rfl⟩ := List.mem_map.1 hfield
    refine ⟨?_, trivial⟩
    simp only [Line.parts, List.forall_mem_cons]
    exact ⟨by decide, by decide, by decide, by decide, isSolid_underscored _, isSolid_underscored _,
      by simp⟩
  · obtain rfl := List.mem_singleton.1 hl
    exact ⟨by decide, trivial⟩

/-- The line of a reference can be read back if identifiers name the tables at its ends and its
symbols are those of a relation: only a one and an asterisk have marks of their own. -/
theorem isLegible_reference {source target : String × String}
    (hsource : IsIdentifier source.1.toList) (htarget : IsIdentifier target.1.toList)
    (h : ∃ relation : Document.Relation, (source.2, target.2) = relation.symbols) :
    (Line.reference source target).IsLegible := by
  obtain ⟨source, s⟩ := source
  obtain ⟨target, t⟩ := target
  obtain ⟨relation, hsymbols⟩ := h
  have hmarks : IsSolid (sourceMark s ++ "--" ++ targetMark t) ∧ (s = "1" ∨ s = "*") ∧
      (t = "1" ∨ t = "*") := by
    cases relation <;> cases hsymbols <;> decide
  refine ⟨?_, hmarks.2⟩
  simp only [Line.parts, List.forall_mem_cons]
  exact ⟨by decide, by decide, isSolid_of_isIdentifier hsource, hmarks.1,
    isSolid_of_isIdentifier htarget, by decide, by decide, by simp⟩

namespace IsPlain

variable {s : Schema}

/-- What is written behind the title are the lines of the drawing, table by table and reference by
reference. -/
theorem map_text_body (h : IsPlain s) : (Drawing.of s).body.map Line.text =
    s.tables.flatMap tableLines ++ s.references.map referenceLine := by
  rw [Drawing.body, Drawing.of, List.map_append, List.flatMap_map, List.map_flatMap, List.map_map,
    List.map_map]
  congr 1
  · refine List.flatMap_congr fun t ht => ?_
    rw [tableLines_eq (h.tables t ht)]
  · refine List.map_congr_left fun r hr => ?_
    rw [referenceLine, entity_of_isIdentifier (h.sources r hr),
      entity_of_isIdentifier (h.targets r hr)]
    exact Line.text_reference (r.source.tableName, r.source.symbol)
      (r.target.tableName, r.target.symbol)

/-- What is written are the lines of the drawing. -/
theorem render_eq (h : IsPlain s) : render s = Line.join (.title :: (Drawing.of s).body) := by
  have hlines : diagramLines s = (.title :: (Drawing.of s).body).map Line.text := by
    rw [List.map_cons, h.map_text_body, diagramLines, List.append_assoc]
    rfl
  rw [render, hlines, Line.join, List.map_map]
  rfl

/-- Every line of a drawing can be read. -/
theorem isLegible (h : IsPlain s) : ∀ l ∈ .title :: (Drawing.of s).body, l.IsLegible := by
  intro l hl
  rw [Drawing.body, List.mem_cons, List.mem_append, List.mem_flatMap, List.mem_map] at hl
  rcases hl with rfl | ⟨_, htable, hl⟩ | ⟨_, hreference, rfl⟩
  · exact ⟨by decide, trivial⟩
  · obtain ⟨t, ht, rfl⟩ := List.mem_map.1 htable
    exact isLegible_of_mem_lines (h.tables t ht) hl
  · obtain ⟨r, hr, rfl⟩ := List.mem_map.1 hreference
    exact isLegible_reference (h.sources r hr) (h.targets r hr) (h.exists_symbols r hr)

/-- What is written of a schema is read as its drawing. -/
theorem read?_render (h : IsPlain s) : read? (render s) = some (Drawing.of s) := by
  rw [read?, h.render_eq, Line.mapM_read?_lines h.isLegible]
  exact drawing?_body _

end IsPlain

/-! ## The theorem -/

/-- **Every diagram of a source text can be read back** if its tables are named by identifiers: the
tables with the type and the name of each field, as they are squeezed, and the references with the
name and the symbol at each end, all in order.  No type is empty. -/
theorem read?_render_of_ofSource {source : String} {s : Schema} (h : Schema.ofSource source = .ok s)
    (htables : ∀ t ∈ s.tables, IsIdentifier t.name.toList)
    (hends : ∀ r ∈ s.references,
      IsIdentifier r.source.tableName.toList ∧ IsIdentifier r.target.tableName.toList) :
    read? (render s) = some (Drawing.of s) ∧
      ∀ t ∈ (Drawing.of s).tables, ∀ f ∈ t.fields, f.1 ≠ "" := by
  have hplain : IsPlain s := ⟨htables, fun r hr => (hends r hr).1, fun r hr => (hends r hr).2,
    Schema.exists_symbols_of_ofSource h⟩
  refine ⟨hplain.read?_render, fun t ht f hf => ?_⟩
  obtain ⟨u, hu, rfl⟩ := List.mem_map.1 ht
  obtain ⟨x, hx, rfl⟩ := List.mem_map.1 hf
  exact underscored_ne_empty (Schema.not_isAllBlank_typeLabel h u hu x hx)

/-- Blanks in the name and the type of a field. -/
theorem read?_render_of_quoted :
    ∃ s, Schema.ofSource "Table a \x7b \"b  c\" \" d e\" [ref: > a.x] \x7d" = .ok s ∧
      (∀ t ∈ s.tables, IsIdentifier t.name.toList) ∧
      (∀ r ∈ s.references,
        IsIdentifier r.source.tableName.toList ∧ IsIdentifier r.target.tableName.toList) ∧
      read? (render s) = some ⟨[⟨"a", [("d_e", "b_c")]⟩], [(("a", "*"), ("a", "1"))]⟩ := by
  have h : Schema.ofSource "Table a \x7b \"b  c\" \" d e\" [ref: > a.x] \x7d" =
      .ok ⟨[⟨"a", none, [⟨"b  c", " d e", none⟩]⟩],
        [⟨⟨"a", ["b  c"], "*"⟩, ⟨"a", ["x"], "1"⟩⟩]⟩ := by
    decide +kernel
  have ha : IsIdentifier "a".toList :=
    ⟨[], 'a', [], rfl, by simp, by decide +kernel, by simp⟩
  have htables : ∀ t ∈ [(⟨"a", none, [⟨"b  c", " d e", none⟩]⟩ : Schema.Table)],
      IsIdentifier t.name.toList := by simpa using ha
  have hends : ∀ r ∈ [(⟨⟨"a", ["b  c"], "*"⟩, ⟨"a", ["x"], "1"⟩⟩ : Schema.Reference)],
      IsIdentifier r.source.tableName.toList ∧ IsIdentifier r.target.tableName.toList := by
    simpa using ha
  refine ⟨_, h, htables, hends, (read?_render_of_ofSource h htables hends).1.trans ?_⟩
  decide +kernel

end Mermaid

end SchemaDiagram
