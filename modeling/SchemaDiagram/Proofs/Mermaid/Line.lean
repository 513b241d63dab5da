import SchemaDiagram.Mermaid
import SchemaDiagram.Proofs.Text.Lines
import SchemaDiagram.Proofs.Text.Squeeze

/-!
# SchemaDiagram.Proofs.Mermaid.Line

The lines of a diagram, written and read.

```
erDiagram                  title
␣␣users␣{                  header
␣␣␣␣int␣id                 field
␣␣}                        closing
␣␣posts␣}o--||␣users␣:␣""  reference
```

A line is parts with spaces between them, the empty ones at its beginning for its indentation.
Lines of different kinds have different numbers of parts, so a line of parts without blanks is read
as what it is (`Line.IsLegible.read?_text`), and so are all lines of a text
(`Line.mapM_read?_lines`).
-/

namespace SchemaDiagram.Mermaid

/-! ## Lines and their parts -/

/-- A line of a diagram. -/
inductive Line where
  | title
  | header (tableName : String)
  | field (type name : String)
  | closing
  /-- The name of a table and a symbol for each end. -/
  | reference (source target : String × String)
  deriving DecidableEq, Repr

/-- A text without blanks. -/
def IsSolid (s : String) : Prop := ∀ c ∈ s.toList, Text.isBlank c = false

instance (s : String) : Decidable (IsSolid s) :=
  decidable_of_iff (s.toList.all (!Text.isBlank ·) = true) (by simp [IsSolid])

/-- The symbols at the ends of a reference, by the marks between its tables. -/
def symbols? : String → Option (String × String)
  | "||--||" => some ("1", "1")
  | "||--o\x7b" => some ("1", "*")
  | "\x7do--||" => some ("*", "1")
  | "\x7do--o\x7b" => some ("*", "*")
  | _ => none

namespace Line

/-- The parts of a line. -/
def parts : Line → List String
  | title => ["erDiagram"]
  | header tableName => ["", "", tableName, "\x7b"]
  | field type name => ["", "", "", "", type, name]
  | closing => ["", "", "\x7d"]
  | reference source target =>
    ["", "", source.1, sourceMark source.2 ++ "--" ++ targetMark target.2, target.1, ":", "\"\""]

/-- The line of the given parts. -/
def ofParts? : List String → Option Line
  | ["erDiagram"] => some title
  | ["", "", tableName, "\x7b"] => some (header tableName)
  | ["", "", "", "", type, name] => some (field type name)
  | ["", "", "\x7d"] => some closing
  | ["", "", source, marks, target, ":", "\"\""] =>
    (symbols? marks).map fun symbols => reference (source, symbols.1) (target, symbols.2)
  | _ => none

/-- A line as text. -/
def text (l : Line) : String := " ".intercalate l.parts

/-- Reads a line. -/
def read? (line : List Char) : Option Line := ofParts? ((line.splitOn ' ').map String.ofList)

/-- The characters of a line are those of its parts, with a space between two of them. -/
theorem toList_text (l : Line) : l.text.toList = [' '].intercalate (l.parts.map String.toList) := by
  rw [text, String.toList_intercalate]
  rfl

/-- A header as it is written, in two blanks of indentation. -/
theorem text_header (tableName : String) :
    (header tableName).text = "  " ++ tableName ++ " \x7b" := by
  rw [← String.toList_inj, toList_text]
  simp [parts]

/-- A field as it is written, in four blanks of indentation. -/
theorem text_field (type name : String) :
    (field type name).text = "    " ++ type ++ " " ++ name := by
  rw [← String.toList_inj, toList_text]
  simp [parts, List.intercalate_cons_cons]

/-- A reference as it is written, in two blanks of indentation. -/
theorem text_reference (source target : String × String) :
    (reference source target).text = "  " ++ source.1 ++ " " ++ sourceMark source.2 ++ "--"
      ++ targetMark target.2 ++ " " ++ target.1 ++ " : \"\"" := by
  rw [← String.toList_inj, toList_text]
  simp [parts, List.intercalate_cons_cons]

/-- The symbols of a line are those that have marks of their own. -/
def HasSymbols : Line → Prop
  | reference source target =>
    (source.2 = "1" ∨ source.2 = "*") ∧ (target.2 = "1" ∨ target.2 = "*")
  | _ => True

/-- Nothing in a line is lost: its parts have no blanks, and its symbols have marks of their own. -/
structure IsLegible (l : Line) : Prop where
  solid : ∀ part ∈ l.parts, IsSolid part
  symbols : l.HasSymbols

/-- A legible line is told from all others by its parts. -/
theorem IsLegible.ofParts?_parts {l : Line} (h : l.IsLegible) : ofParts? l.parts = some l := by
  cases l with
  | reference source target =>
    obtain ⟨source, s⟩ := source
    obtain ⟨target, t⟩ := target
    obtain ⟨rfl | rfl, rfl | rfl⟩ := h.symbols <;> rfl
  | _ => rfl

/-- A legible line is read from its text: no part has a space, so the spaces of the text are those
between parts. -/
theorem IsLegible.read?_text {l : Line} (h : l.IsLegible) : read? l.text.toList = some l := by
  have hparts : l.parts.map String.toList ≠ [] := by cases l <;> simp [parts]
  have hspace : ∀ part ∈ l.parts.map String.toList, ' ' ∉ part := by
    intro _ hpart hc
    obtain ⟨part, hmem, rfl⟩ := List.mem_map.1 hpart
    exact absurd (h.solid part hmem ' ' hc) (by decide)
  rw [read?, toList_text, List.splitOn_intercalate ' ' hspace hparts, List.map_map]
  simpa [Function.comp_def] using h.ofParts?_parts

/-! ## Texts -/

/-- Between the parts of a line stands nothing but its separator. -/
theorem mem_intercalate_singleton {a b : α} {parts : List (List α)}
    (h : a ∈ [b].intercalate parts) : a = b ∨ ∃ part ∈ parts, a ∈ part := by
  induction parts with
  | nil => contradiction
  | cons part parts ih =>
    cases parts with
    | nil => exact .inr ⟨part, List.mem_singleton_self _, by simpa using h⟩
    | cons next parts =>
      rw [List.intercalate_cons_cons, List.append_assoc, List.mem_append, List.mem_append] at h
      rcases h with h | h | h
      · exact .inr ⟨part, List.mem_cons_self, h⟩
      · exact .inl (List.mem_singleton.1 h)
      · refine (ih h).imp_right fun ⟨p, hp, hc⟩ => ⟨p, List.mem_cons_of_mem part hp, hc⟩

/-- The only blanks of a line are spaces. -/
theorem IsLegible.not_mem_text {l : Line} (h : l.IsLegible) {c : Char} (hc : Text.isBlank c = true)
    (hne : c ≠ ' ') : c ∉ l.text.toList := by
  intro hmem
  rw [toList_text] at hmem
  rcases mem_intercalate_singleton hmem with rfl | ⟨_, htext, hmem⟩
  · contradiction
  · obtain ⟨part, hpart, rfl⟩ := List.mem_map.1 htext
    rw [h.solid part hpart c hmem] at hc
    contradiction

/-- Lines as one text; every line ends with a line feed. -/
def join (ls : List Line) : String := String.join (ls.map fun l => l.text ++ "\n")

/-- What is written line by line is read line by line. -/
theorem mapM_read?_lines {ls : List Line} (h : ∀ l ∈ ls, l.IsLegible) :
    (Text.lines (join ls).toList).mapM read? = some ls := by
  induction ls with
  | nil => rfl
  | cons l ls ih =>
    have hl := h l List.mem_cons_self
    have hreturn : '\r' ∉ l.text.toList := hl.not_mem_text (by decide) (by decide)
    have hline : Text.withoutReturn l.text.toList = l.text.toList := by
      rw [Text.withoutReturn, if_neg fun hlast => hreturn (List.mem_of_getLast? hlast)]
    have htext : (join (l :: ls)).toList = l.text.toList ++ '\n' :: (join ls).toList := by
      simp [join]
    rw [htext, Text.lines_line (hl.not_mem_text (by decide) (by decide)), hline, List.mapM_cons,
      hl.read?_text, ih fun m hm => h m (List.mem_cons_of_mem l hm)]
    rfl

end Line

end SchemaDiagram.Mermaid
