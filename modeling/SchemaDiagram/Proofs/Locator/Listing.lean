import SchemaDiagram.Proofs.Diagram.NodeName
import SchemaDiagram.Proofs.Document.Listing
import SchemaDiagram.Proofs.Locator.Layout
import SchemaDiagram.Proofs.Token.Piece

/-!
# SchemaDiagram.Proofs.Locator.Listing

What the locator finds in a listing.

In the lines of a listing a line is taken for the declaration of a table only if it is one and its
name begins alike (`declares_header`, `declares_eq_false_of_mem_rows`), and for that of a field only
if its name begins alike (`prefix_folded_field`).  So a table is found on its own lines, and a field
on its own line, unless one before it has a longer name (`locates_of_lines`).
-/

namespace SchemaDiagram.Listing

open Locator Text
open Outline (Word)

/-! ## Names before a space -/

section

variable {xs ys zs : List Char}

/-- A name without a space that begins a text begins what stands there before the first space. -/
theorem prefix_of_prefix_append_space (h : xs <+: ys ++ ' ' :: zs) (hxs : ' ' ∉ xs) :
    xs <+: ys := by
  obtain ⟨more, hmore⟩ := h
  rcases List.append_eq_append_iff.1 hmore with ⟨ws, rfl, -⟩ | ⟨ws, rfl, hws⟩
  · exact List.prefix_append xs ws
  · cases ws with
    | nil => simp
    | cons w ws =>
      obtain ⟨rfl, -⟩ := List.cons.inj hws
      simp at hxs

/-- A name with a space behind it that begins a text is all that stands there before the first
space. -/
theorem eq_of_isPrefix_append (h : xs ++ [' '] <+: ys ++ zs) (hxs : ' ' ∉ xs) (hys : ' ' ∉ ys)
    (hzs : zs = [] ∨ ∃ ws, zs = ' ' :: ws) : ys = xs := by
  obtain ⟨more, hmore⟩ := h
  rw [List.append_assoc, List.singleton_append] at hmore
  rcases hzs with rfl | ⟨ws, rfl⟩
  · rw [List.append_nil] at hmore
    simp [← hmore] at hys
  · have hbefore := congrArg (List.takeWhile (· != ' ')) hmore
    rwa [List.takeWhile_append_of_pos (bne_of_not_mem hxs),
      List.takeWhile_append_of_pos (bne_of_not_mem hys), List.takeWhile_cons_of_neg (by simp),
      List.takeWhile_cons_of_neg (by simp), List.append_nil, List.append_nil, eq_comm] at hbefore

end

/-! ## Lines -/

/-- The lower case of a word. -/
def lowered (w : Word) : List Char := lower w.text.toList

/-- A word has no blanks. -/
theorem isBlank_of_word (w : Word) : ∀ c ∈ w.text.toList, isBlank c = false :=
  Lexeme.isBlank_of_isIdentifier w.isIdentifier

/-- A word has no spaces in lower case either. -/
theorem space_not_mem_lowered (w : Word) : ' ' ∉ lowered w :=
  space_not_mem_lower fun h => absurd (isBlank_of_word w ' ' h) (by decide)

/-- A word has no braces. -/
theorem brace_not_mem_word (w : Word) : '\x7b' ∉ w.text.toList ∧ '\x7d' ∉ w.text.toList :=
  ⟨fun h => absurd (Lexeme.isNameChar_of_isIdentifier w.isIdentifier _ h) (by decide),
    fun h => absurd (Lexeme.isNameChar_of_isIdentifier w.isIdentifier _ h) (by decide)⟩

/-- The indentation of a line does not matter. -/
theorem folded_append {indent text : List Char} (hindent : ∀ c ∈ indent, isBlank c = true)
    (hne : text ≠ []) (hfirst : ∀ c ∈ text.head?, isBlank c = false)
    (hlast : ∀ c ∈ text.getLast?, isBlank c = false) : folded (indent ++ text) = lower text := by
  obtain ⟨kept, hkept, htrim⟩ := exists_trim_eq hindent hfirst hlast hne []
  obtain rfl := List.prefix_nil.1 hkept
  rw [List.append_nil] at htrim
  rw [folded, htrim]

/-- The first line of a table, as the locator compares it. -/
theorem folded_header (t : Table) :
    folded t.header = "table ".toList ++ (lowered t.name ++ [' ', '\x7b']) := by
  have hheader : t.header =
      [] ++ ("Table".toList ++ ' ' :: (t.name.text.toList ++ [' ', '\x7b'])) :=
    List.append_assoc "Table ".toList _ _
  have hkeyword : lower "Table".toList = "table".toList := by decide +kernel
  have hbrace : lower ['\x7b'] = ['\x7b'] := by decide +kernel
  have hfirst : isBlank 'T' = false := by decide
  rw [hheader, folded_append (by simp) (by simp) (by simpa using hfirst) ?_, lower_append_space,
    lower_append_space, hkeyword, hbrace]
  · rfl
  · rw [← List.cons_append, ← List.append_assoc, List.getLast?_append]
    rintro _ ⟨⟩
    decide

/-- What stands behind the name on the line of a field. -/
def Field.behind (f : Field) : List Char :=
  match f.type with
  | some type => ' ' :: lowered type
  | none => []

/-- What begins with a word does not begin with a blank. -/
theorem head?_word_append (w : Word) (cs : List Char) :
    ∀ c ∈ (w.text.toList ++ cs).head?, isBlank c = false := by
  obtain ⟨d, ds, hw⟩ := List.exists_cons_of_ne_nil (Lexeme.ne_nil_of_isIdentifier w.isIdentifier)
  have hd := isBlank_of_word w d (hw ▸ List.mem_cons_self)
  rw [hw]
  rintro _ ⟨⟩
  exact hd

/-- What ends with a word does not end with a blank. -/
theorem getLast?_append_word (cs : List Char) (w : Word) :
    ∀ c ∈ (cs ++ w.text.toList).getLast?, isBlank c = false := by
  intro c hc
  rw [List.getLast?_append_of_ne_nil _ (Lexeme.ne_nil_of_isIdentifier w.isIdentifier)] at hc
  exact isBlank_of_word w c (List.mem_of_getLast? hc)

/-- The line of a field, as the locator compares it. -/
theorem folded_field (f : Field) : folded f.row = lowered f.name ++ f.behind := by
  obtain ⟨name, type⟩ := f
  have hindent : ∀ c ∈ "  ".toList, isBlank c = true := List.all_eq_true.1 (by decide)
  have hne := Lexeme.ne_nil_of_isIdentifier name.isIdentifier
  cases type with
  | none =>
    have hrow : (⟨name, none⟩ : Field).row = "  ".toList ++ name.text.toList := List.append_nil _
    rw [hrow, folded_append hindent hne (by simpa using head?_word_append name [])
      (by simpa using getLast?_append_word [] name)]
    exact (List.append_nil _).symm
  | some type =>
    have hrow : (⟨name, some type⟩ : Field).row =
        "  ".toList ++ (name.text.toList ++ ' ' :: type.text.toList) := List.append_assoc _ _ _
    have hlast := getLast?_append_word (name.text.toList ++ [' ']) type
    rw [List.append_assoc, List.singleton_append] at hlast
    rw [hrow, folded_append hindent (by simp) (head?_word_append name _) hlast, lower_append_space]
    rfl

/-! ## Lines that declare -/

/-- The first line of a table declares every table whose name its own name begins with. -/
theorem declares_header {w : Word} {t : Table} :
    declares w.text t.header = true ↔ lowered w <+: lowered t.name := by
  rw [declares, List.isPrefixOf_iff_prefix, folded_header, List.prefix_append_right_inj]
  constructor
  · exact fun h => prefix_of_prefix_append_space h (space_not_mem_lowered w)
  · exact fun h => h.trans (List.prefix_append _ _)

/-- A field declares no table unless it is called `table`. -/
theorem declares_field (w : Word) {f : Field} (hf : lowered f.name ≠ "table".toList) :
    declares w.text f.row = false := by
  rw [declares, Bool.eq_false_iff, Ne, List.isPrefixOf_iff_prefix, folded_field]
  intro h
  have hbehind : f.behind = [] ∨ ∃ ws, f.behind = ' ' :: ws := by
    unfold Field.behind
    split
    · exact .inr ⟨_, rfl⟩
    · exact .inl rfl
  have hkeyword : "table".toList ++ [' '] <+: lowered f.name ++ f.behind :=
    (List.prefix_append _ _).trans h
  exact hf (eq_of_isPrefix_append hkeyword (by decide) (space_not_mem_lowered _) hbehind)

/-- The lines of tables do not declare another one, unless one of their names begins with its
name. -/
theorem declares_eq_false_of_mem_rows {w : Word} {ts : List Table}
    (hnew : ∀ t ∈ ts, ¬ lowered w <+: lowered t.name)
    (hfields : ∀ t ∈ ts, ∀ f ∈ t.fields, lowered f.name ≠ "table".toList) :
    ∀ row ∈ rows ts, declares w.text row = false := by
  intro row hrow
  obtain ⟨t, ht, hrow⟩ := List.mem_flatMap.1 hrow
  rw [Table.rows, List.mem_cons, List.mem_append, List.mem_singleton, List.mem_map] at hrow
  rcases hrow with rfl | ⟨f, hf, rfl⟩ | rfl
  · exact Bool.eq_false_iff.2 fun h => hnew t ht (declares_header.1 h)
  · exact declares_field w (hfields t ht f hf)
  · rfl

/-! ## The block of a table -/

variable {before after : List Table} {t : Table}

/-- The lines of a table stand between those of the tables before and behind it. -/
theorem rows_eq (before : List Table) (t : Table) (after : List Table) :
    rows (before ++ t :: after) =
      rows before ++ t.header :: (t.fields.map Field.row ++ ['\x7d'] :: rows after) := by
  simp [rows, Table.rows]

/-- A word opens and closes no block. -/
theorem balance_word (w : Word) : balance w.text.toList = 0 :=
  balance_of_not_mem (brace_not_mem_word w).1 (brace_not_mem_word w).2

/-- The first line of a table opens a block. -/
theorem balance_header (t : Table) : balance t.header = 1 := by
  have hkeyword : balance "Table ".toList = 0 := by decide
  have hbrace : balance " \x7b".toList = 1 := by decide
  unfold Table.header
  rw [balance_append, balance_append, balance_word, hkeyword, hbrace]
  rfl

/-- The line of a field opens and closes no block. -/
theorem balance_field (f : Field) : balance f.row = 0 := by
  have hindent : balance "  ".toList = 0 := by decide
  have hspace : balance [' '] = 0 := by decide
  unfold Field.row
  rw [balance_append, balance_append, balance_word, hindent]
  split
  · rw [balance_cons, balance_word, hspace]
    rfl
  · rfl

/-- A block ends on the line behind its fields. -/
theorem closingLine?_rows (fields : List Field) (rest : List (List Char)) :
    closingLine? 1 (fields.map Field.row ++ ['\x7d'] :: rest) = some fields.length := by
  induction fields with
  | nil => rfl
  | cons f fields ih =>
    rw [List.map_cons, List.cons_append, closingLine?, balance_field, if_neg (by decide),
      Int.add_zero, ih]
    rfl

/-- A name begins the line of a field if it begins the field's name. -/
theorem prefix_folded_field {w : Word} {f : Field} :
    lowered w <+: folded f.row ↔ lowered w <+: lowered f.name := by
  rw [folded_field]
  constructor
  · intro h
    unfold Field.behind at h
    split at h
    · exact prefix_of_prefix_append_space h (space_not_mem_lowered w)
    · rwa [List.append_nil] at h
  · exact fun h => h.trans (List.prefix_append _ _)

/-- The first field whose name begins like a name is the one that is taken for it. -/
theorem fieldLine?_rows {above : List Field} {f : Field} (rest : List (List Char))
    (hnew : ∀ g ∈ above, ¬ lowered f.name <+: lowered g.name) :
    fieldLine? (lowered f.name) 1 (above.map Field.row ++ f.row :: rest) = some above.length := by
  induction above with
  | nil =>
    have hname : (lowered f.name).isPrefixOf (folded f.row) = true :=
      List.isPrefixOf_iff_prefix.2 (prefix_folded_field.2 List.prefix_rfl)
    rw [List.map_nil, List.nil_append, fieldLine?, balance_field, if_neg (by decide),
      if_pos hname]
    rfl
  | cons g above ih =>
    have hname : ¬ (lowered f.name).isPrefixOf (folded g.row) = true := fun h =>
      hnew g List.mem_cons_self (prefix_folded_field.1 (List.isPrefixOf_iff_prefix.1 h))
    rw [List.map_cons, List.cons_append, fieldLine?, balance_field, if_neg (by decide),
      if_neg hname, Int.add_zero, ih fun h hh => hnew h (List.mem_cons_of_mem g hh)]
    rfl

/-- A table that can be told from those before it, and is not taken for a field of theirs. -/
structure IsNew (before : List Table) (t : Table) : Prop where
  table : ∀ u ∈ before, ¬ lowered t.name <+: lowered u.name
  field : ∀ u ∈ before, ∀ f ∈ u.fields, lowered f.name ≠ "table".toList

namespace IsNew

/-- The block of a table that can be told from those before it begins on its first line. -/
theorem blockStart?_eq (h : IsNew before t) (after : List Table) :
    blockStart? (rows (before ++ t :: after)) t.name.text =
      some ((rows before).length, (rows before).length) := by
  have hnone : (rows before).findIdx? (declares t.name.text) = none :=
    List.findIdx?_eq_none_iff.2 (declares_eq_false_of_mem_rows h.table h.field)
  have hheader : declares t.name.text t.header = true := declares_header.2 List.prefix_rfl
  have hopen : t.header.contains '\x7b' = true :=
    List.contains_iff_mem.2 (List.mem_append_right _ (by decide))
  rw [blockStart?, rows_eq, List.findIdx?_append, hnone, List.findIdx?_cons, if_pos hheader]
  dsimp only [Option.none_or, Option.map_some]
  rw [Nat.zero_add, List.drop_left, List.findIdx?_cons, if_pos hopen]
  rfl

/-- A table is found on its lines. -/
theorem table?_eq (h : IsNew before t) (after : List Table) :
    table? (rows (before ++ t :: after)) t.name.text =
      some ⟨⟨(rows before).length + 1, 1⟩, ⟨(rows before).length + t.fields.length + 2, 2⟩⟩ := by
  have hclosing : closingLine? 0 (t.header :: (t.fields.map Field.row ++ ['\x7d'] :: rows after)) =
      some (t.fields.length + 1) := by
    rw [closingLine?, balance_header, if_neg (by decide), Int.zero_add, closingLine?_rows]
    rfl
  have hlast : (rows (before ++ t :: after))[(rows before).length + (t.fields.length + 1)]? =
      some ['\x7d'] := by
    rw [rows_eq, List.getElem?_append_right (by omega), Nat.add_sub_cancel_left,
      List.getElem?_cons_succ, List.getElem?_append_right (by simp), List.length_map, Nat.sub_self]
    rfl
  rw [table?, h.blockStart?_eq after]
  dsimp only
  rw [rows_eq, List.drop_left, hclosing, Option.map_some, ← rows_eq, Span.ofLines, hlast]
  rfl

/-- A field is found on its line. -/
theorem field?_eq (h : IsNew before t) (after : List Table) {above below : List Field} {f : Field}
    (hfields : t.fields = above ++ f :: below)
    (hnew : ∀ g ∈ above, ¬ lowered f.name <+: lowered g.name) :
    field? (rows (before ++ t :: after)) t.name.text f.name.text =
      some ⟨⟨(rows before).length + above.length + 2, 1⟩,
        ⟨(rows before).length + above.length + 2, f.row.length + 1⟩⟩ := by
  have hbody : t.fields.map Field.row ++ ['\x7d'] :: rows after =
      above.map Field.row ++ f.row :: (below.map Field.row ++ ['\x7d'] :: rows after) := by
    simp [hfields]
  have hline : (rows (before ++ t :: after))[(rows before).length + 1 + above.length]? =
      some f.row := by
    rw [rows_eq, hbody, Nat.add_assoc, List.getElem?_append_right (by omega),
      Nat.add_sub_cancel_left, Nat.add_comm 1, List.getElem?_cons_succ,
      List.getElem?_append_right (by simp), List.length_map, Nat.sub_self]
    rfl
  have hfound := fieldLine?_rows (below.map Field.row ++ ['\x7d'] :: rows after) hnew
  have hdrop : (rows (before ++ t :: after)).drop (rows before).length = t.header ::
      (above.map Field.row ++ f.row :: (below.map Field.row ++ ['\x7d'] :: rows after)) := by
    rw [rows_eq, List.drop_left, hbody]
  have hposition : (rows before).length + 1 + above.length + 1 =
      (rows before).length + above.length + 2 := by omega
  unfold field?
  dsimp only
  rw [h.blockStart?_eq after]
  dsimp only
  rw [hdrop]
  dsimp only
  rw [balance_header, if_neg (by decide), ← lowered, hfound, Option.map_some, Span.ofLines, hline,
    hposition]
  rfl

end IsNew

/-! ## Nodes -/

/-- A name of a table can be read back from its nodes. -/
theorem isReadable_word (w : Word) : IsReadable w.text := isReadable_of_isIdentifier w.isIdentifier

/-- **What is written line by line is located line by line.**  A text with the lines of a listing
compiles without a diagnostic to the nodes of its tables.  For the container and the header of a
table the locator finds its lines, from `Table` to the closing brace, unless the name of a table
before begins with its name; for the row of a field it finds the line of the field, unless the name
of a field before, in the same table, begins with its name.  Names are compared in lower case, no
field is called `table` in any case, and none is called `header`. -/
theorem located_of_lines (a : Appearance) {source : String} {tables : List Table}
    (hlines : Text.lines source.toList = rows tables)
    (hfields : ∀ t ∈ tables, ∀ f ∈ t.fields,
      lowered f.name ≠ "table".toList ∧ f.name.text ≠ headerName) :
    (Compilation.ofSource a source).diagnostics = [] ∧
    (Compilation.ofSource a source).nodes =
      (tables.mapIdx fun i t =>
        Diagram.tableNodes a.layout a.theme i (.of t.meaning)).flatten ∧
    ∀ before t after, tables = before ++ t :: after →
      (∀ u ∈ before, ¬ lowered t.name <+: lowered u.name) →
      (∀ n ∈ Diagram.tableNodes a.layout a.theme before.length (.of t.meaning), n.kind ≠ .field →
        element? source (.ofNode n.id) =
          some ⟨⟨(rows before).length + 1, 1⟩,
            ⟨(rows before).length + t.fields.length + 2, 2⟩⟩) ∧
      ∀ above f below, t.fields = above ++ f :: below →
        (∀ g ∈ above, ¬ lowered f.name <+: lowered g.name) →
        element? source (.ofNode
            (Diagram.row a.layout a.theme (.of t.meaning) above.length (.of f.meaning)).id) =
          some ⟨⟨(rows before).length + above.length + 2, 1⟩,
            ⟨(rows before).length + above.length + 2, f.row.length + 1⟩⟩ := by
  rw [Compilation.ofSource_of_ok a (ofSource_of_lines hlines)]
  refine ⟨rfl, ?_, ?_⟩
  · exact congrArg List.flatten (List.ext_getElem (by simp) (by simp))
  · rintro before t after rfl hnew
    have hisNew : IsNew before t :=
      ⟨hnew, fun u hu f hf => (hfields u (List.mem_append_left _ hu) f hf).1⟩
    obtain ⟨hpoint, hne⟩ := isReadable_word t.name
    have htable : table? (Text.lines source.toList) t.name.text = _ :=
      hlines ▸ hisNew.table?_eq after
    refine ⟨fun n hn hkind => ?_, fun above f below ht hfirst => ?_⟩
    · rw [Diagram.tableNodes, List.mem_cons, List.mem_cons] at hn
      rcases hn with rfl | rfl | hrow
      · exact (congrArg (element? source) (Element.ofNode_tableNode hpoint hne)).trans htable
      · exact (congrArg (element? source) (Element.ofNode_headerNode hpoint)).trans htable
      · obtain ⟨i, hi, rfl⟩ := List.mem_mapIdx.1 hrow
        exact absurd rfl hkind
    · have hheader := (hfields t (by simp) f (ht ▸ List.mem_append_right _ List.mem_cons_self)).2
      have hnode := Element.ofNode_fieldNode hpoint f.name.text
      rw [if_neg hheader] at hnode
      have hfield : field? (Text.lines source.toList) t.name.text f.name.text = _ :=
        hlines ▸ hisNew.field?_eq after ht hfirst
      exact (congrArg (element? source) hnode).trans hfield

/-- A word that begins with a letter or a low line. -/
def plainWord (text : String) (h : Outline.isPlainWord text = true := by decide) : Word :=
  ⟨text, Outline.isIdentifier_of_isPlainWord h⟩

/-- A table with two fields. -/
def usersTable : Table :=
  ⟨plainWord "users", [⟨plainWord "id", some (plainWord "int")⟩, ⟨plainWord "name", none⟩]⟩

/-- A table with one field. -/
def postsTable : Table := ⟨plainWord "posts", [⟨plainWord "user", none⟩]⟩

/-- The text with the lines of both tables. -/
def twoTables : String :=
  "Table users \x7b\n  id int\n  name\n\x7d\nTable posts \x7b\n  user\n\x7d\n"

/-- The second table and the second field of the first one are where they stand. -/
theorem located_twoTables :
    (Compilation.ofSource {} twoTables).diagnostics = [] ∧
    element? twoTables (.ofNode (tableNode "posts")) = some ⟨⟨5, 1⟩, ⟨7, 2⟩⟩ ∧
    element? twoTables (.ofNode (fieldNode "users" "name")) = some ⟨⟨3, 1⟩, ⟨3, 7⟩⟩ := by
  have hlines : Text.lines twoTables.toList = rows [usersTable, postsTable] := by decide +kernel
  obtain ⟨hdiagnostics, -, hlocated⟩ := located_of_lines {} hlines (by decide +kernel)
  obtain ⟨-, hrow⟩ := hlocated [] usersTable [postsTable] rfl (by simp)
  obtain ⟨hblock, -⟩ := hlocated [usersTable] postsTable [] rfl (by decide +kernel)
  refine ⟨hdiagnostics, hblock _ List.mem_cons_self (by decide), ?_⟩
  exact hrow [⟨plainWord "id", some (plainWord "int")⟩] ⟨plainWord "name", none⟩ [] rfl
    (by decide +kernel)

end SchemaDiagram.Listing
