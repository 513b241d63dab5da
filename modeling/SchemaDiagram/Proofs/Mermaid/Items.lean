import Mathlib
import SchemaDiagram.Proofs.Mermaid.Reading

/-!
# SchemaDiagram.Proofs.Mermaid.Items

The lines of a diagram, one for each item of the schema.

```
item       line                        names
title      erDiagram
header     ␣␣"audit␣log"␣{             audit␣log
field      ␣␣␣␣int␣id
closing    ␣␣}
reference  ␣␣posts␣}o--||␣users␣:␣""   posts, users
```

1. The name of a table is written as an entity, a word or a text between quotes, if it has a
   character and no quote (`isEntity_enclose_iff`).
2. A line feed in a name ends the line, so there is one line for each item and one more for each
   such line feed (`count_render`).
3. A text is itemized if it is one line for each item, with well-formed entities (`IsItemized`).
   Lines show this of themselves: the quotes in a line tell how many are around the two names and
   whether there are more (`IsEntity.names_of_append`).
-/

namespace SchemaDiagram.Mermaid

/-! ## Entities -/

/-- Text that stands for a table: a word, or a text between quotes without a quote in it. -/
inductive IsEntity (cs : List Char) : Prop
  | word : cs ≠ [] → (∀ c ∈ cs, isEntityChar c = true) → IsEntity cs
  | quoted {inner : List Char} : '"' ∉ inner → cs = '"' :: inner ++ ['"'] → IsEntity cs

/-- A name between quotes, if it needs them. -/
def enclose (cs : List Char) : List Char :=
  if cs.all isEntityChar then cs else '"' :: cs ++ ['"']

/-- The characters that are written of a name. -/
theorem toList_entity (name : String) : (entity name).toList = enclose name.toList := by
  unfold entity enclose
  split <;> simp

/-- A name is written from behind as it is from the front. -/
theorem enclose_reverse (cs : List Char) : enclose cs.reverse = (enclose cs).reverse := by
  unfold enclose
  rw [List.all_reverse]
  split <;> simp

/-- An entity is one from behind too. -/
theorem IsEntity.reverse {cs : List Char} (h : IsEntity cs) : IsEntity cs.reverse := by
  cases h with
  | word hne hword => exact .word (by simpa using hne) (by simpa using hword)
  | @quoted inner hinner hcs =>
    have hreverse : '"' ∉ inner.reverse := by simpa using hinner
    exact .quoted hreverse (by simp [hcs])

/-- A name with a quote in it is no word. -/
theorem all_isEntityChar_of_mem {cs : List Char} (hquote : '"' ∈ cs) :
    cs.all isEntityChar = false :=
  List.all_eq_false.2 ⟨'"', hquote, by decide +kernel⟩

/-- What is written of a name has the quotes of the name, and two more if it is not a word. -/
theorem count_enclose (cs : List Char) : (enclose cs).count '"' =
    if cs.all isEntityChar then 0 else 2 + cs.count '"' := by
  unfold enclose
  split
  · rename_i hall
    refine List.count_eq_zero.2 fun hquote => ?_
    rw [all_isEntityChar_of_mem hquote] at hall
    contradiction
  · simp [List.count_append]
    omega

/-- A name that is written with two quotes at most has none in it. -/
theorem quote_not_mem_of_count {cs : List Char} (h : (enclose cs).count '"' ≤ 2) : '"' ∉ cs := by
  intro hquote
  have hpos := List.count_pos_iff.2 hquote
  rw [count_enclose, all_isEntityChar_of_mem hquote] at h
  simp at h
  omega

/-- An entity has two quotes at most. -/
theorem IsEntity.count_le {e : List Char} (h : IsEntity e) : e.count '"' ≤ 2 := by
  cases h with
  | word _ hword =>
    have hquote : '"' ∉ e := fun hmem => absurd (hword _ hmem) (by decide +kernel)
    simp [List.count_eq_zero.2 hquote]
  | quoted hinner he => simp [he, List.count_eq_zero.2 hinner]

section

variable {e e₁ e₂ cs cs₁ cs₂ : List Char}

/-- An entity at the front of a text, read as what is written of a name: the name has a character,
and it has as many quotes around it as the entity. -/
theorem IsEntity.count_le_enclose (he : IsEntity e) {u v : List Char}
    (h : e ++ ' ' :: u = enclose cs ++ ' ' :: v) :
    cs ≠ [] ∧ e.count '"' ≤ (enclose cs).count '"' := by
  by_cases hall : cs.all isEntityChar = true
  · rw [enclose, if_pos hall] at h ⊢
    cases he with
    | word hne hword =>
      have hcount : e.count '"' = 0 :=
        List.count_eq_zero.2 fun hmem => absurd (hword _ hmem) (by decide +kernel)
      refine ⟨?_, by omega⟩
      rintro rfl
      obtain ⟨c, e, rfl⟩ := List.exists_cons_of_ne_nil hne
      obtain rfl : c = ' ' := (List.cons.inj h).1
      exact absurd (hword ' ' List.mem_cons_self) (by decide +kernel)
    | quoted _ hquoted =>
      -- A word does not begin with a quote, and neither does the space behind an empty one.
      subst hquoted
      cases cs with
      | nil => exact absurd (List.cons.inj h).1 (by decide)
      | cons c cs =>
        obtain rfl : '"' = c := (List.cons.inj h).1
        simp at hall
        exact absurd hall.1 (by decide +kernel)
  · refine ⟨fun hnil => hall (by simp [hnil]), ?_⟩
    have := he.count_le
    rw [count_enclose, if_neg hall]
    omega

/-- A name is written as an entity if it has a character and no quote. -/
theorem isEntity_enclose_iff : IsEntity (enclose cs) ↔ cs ≠ [] ∧ '"' ∉ cs := by
  constructor
  · exact fun h => ⟨(h.count_le_enclose (u := []) rfl).1, quote_not_mem_of_count h.count_le⟩
  · rintro ⟨hne, hquote⟩
    unfold enclose
    split
    · rename_i hall
      exact .word hne (List.all_eq_true.1 hall)
    · exact .quoted hquote rfl

/-- Two entities in a line, read as what is written of two names. -/
theorem IsEntity.names_of_append (h₁ : IsEntity e₁) (h₂ : IsEntity e₂) {m n : List Char}
    (hmn : m.count '"' = n.count '"')
    (h : e₁ ++ ' ' :: m ++ ' ' :: e₂ = enclose cs₁ ++ ' ' :: n ++ ' ' :: enclose cs₂) :
    (cs₁ ≠ [] ∧ '"' ∉ cs₁) ∧ cs₂ ≠ [] ∧ '"' ∉ cs₂ := by
  obtain ⟨hne₁, hle₁⟩ := h₁.count_le_enclose (by simpa using h)
  have hback : e₂.reverse ++ ' ' :: (e₁ ++ ' ' :: m).reverse =
      enclose cs₂.reverse ++ ' ' :: (enclose cs₁ ++ ' ' :: n).reverse := by
    simpa [enclose_reverse] using congrArg List.reverse h
  obtain ⟨hne₂, hle₂⟩ := h₂.reverse.count_le_enclose hback
  have htotal := congrArg (List.count '"') h
  simp only [List.count_append, List.count_cons, enclose_reverse, List.count_reverse] at htotal hle₂
  have hcount₁ := h₁.count_le
  have hcount₂ := h₂.count_le
  exact ⟨⟨hne₁, quote_not_mem_of_count (by omega)⟩, by simpa using hne₂,
    quote_not_mem_of_count (by omega)⟩

end

/-! ## Items -/

/-- What a line of a diagram is about. -/
inductive Item where
  | title
  | header (t : Schema.Table)
  | field (f : Schema.Field)
  | closing
  | reference (r : Schema.Reference)
  deriving DecidableEq, Repr

namespace Item

/-- The names of tables that a line has to show. -/
def names : Item → List String
  | header t => [t.name]
  | reference r => [r.source.tableName, r.target.tableName]
  | _ => []

/-- The line that is written. -/
def line : Item → Line
  | title => .title
  | header t => .header (entity t.name)
  | field f => .field (oneWord f.typeLabel) (oneWord f.name)
  | closing => .closing
  | reference r => .reference (entity r.source.tableName, r.source.symbol)
      (entity r.target.tableName, r.target.symbol)

/-- A line is about an item, with well-formed entities for the names of tables. -/
inductive IsShownBy : Item → Line → Prop
  | title : IsShownBy .title .title
  | header {t : Schema.Table} {e : String} : IsEntity e.toList → IsShownBy (.header t) (.header e)
  | field {f : Schema.Field} {type name : String} : IsShownBy (.field f) (.field type name)
  | closing : IsShownBy .closing .closing
  | reference {r : Schema.Reference} {source target : String × String} :
      IsEntity source.1.toList → IsEntity target.1.toList →
      IsShownBy (.reference r) (.reference source target)

end Item

/-- The items of a table. -/
def tableItems (t : Schema.Table) : List Item := .header t :: t.fields.map .field ++ [.closing]

/-- The items of a schema, in the order of their lines. -/
def items (s : Schema) : List Item :=
  .title :: s.tables.flatMap tableItems ++ s.references.map .reference

/-- The names of tables at all places of a diagram. -/
def names (s : Schema) : List String := (items s).flatMap (·.names)

/-- A table has a line for each field and two more, and a reference has one. -/
theorem length_items (s : Schema) : (items s).length =
    1 + (s.tables.map fun t => 2 + t.fields.length).sum + s.references.length := by
  have htable : ∀ t, (tableItems t).length = 2 + t.fields.length := by
    intro t
    simp [tableItems]
    omega
  simp [items, List.length_flatMap, htable]
  omega

/-- The lines of a table are those of its items. -/
theorem tableLines_eq_items (t : Schema.Table) :
    tableLines t = (tableItems t).map (·.line.text) := by
  simp [tableLines, tableItems, Item.line, Line.text_header, Line.text_field, Function.comp_def]
  rfl

/-- The lines of a diagram are those of its items. -/
theorem diagramLines_eq_items (s : Schema) :
    diagramLines s = (items s).map (·.line.text) := by
  have htables : s.tables.flatMap tableLines =
      (s.tables.flatMap tableItems).map (·.line.text) := by
    rw [List.map_flatMap]
    exact List.flatMap_congr fun t _ => tableLines_eq_items t
  have hreferences : s.references.map referenceLine =
      (s.references.map Item.reference).map (·.line.text) := by
    simp [referenceLine, Item.line, Line.text_reference, Function.comp_def]
  rw [diagramLines, htables, hreferences, items, List.map_append, List.map_cons]
  rfl

/-- A diagram is its lines, each with a line feed behind it. -/
theorem render_eq_join (s : Schema) : render s = Line.join ((items s).map (·.line)) := by
  rw [render, diagramLines_eq_items, Line.join, List.map_map, List.map_map]
  rfl

/-! ## References -/

namespace Line

/-- The marks between the two tables of a reference. -/
def marks (source target : String) : List Char :=
  (sourceMark source).toList ++ '-' :: '-' :: (targetMark target).toList

/-- The text of a reference, around its two tables. -/
theorem toList_reference (source target : String × String) :
    (reference source target).text.toList = ' ' :: ' ' :: (source.1.toList ++
      ' ' :: marks source.2 target.2 ++ ' ' :: target.1.toList) ++ " : \"\"".toList := by
  simp [text_reference, marks]

/-- The marks between two tables have neither quotes nor line feeds. -/
theorem not_mem_marks (source target : String) :
    '"' ∉ marks source target ∧ '\n' ∉ marks source target := by
  unfold marks sourceMark targetMark
  split <;> split <;> decide

end Line

/-! ## Line feeds -/

/-- The line feeds of joined lines are those in the lines, and one behind each. -/
theorem Line.count_join (ls : List Line) : (join ls).toList.count '\n' =
    ls.length + (ls.map fun l => l.text.toList.count '\n').sum := by
  induction ls with
  | nil => rfl
  | cons l ls ih =>
    have hjoin : join (l :: ls) = l.text ++ "\n" ++ join ls := by simp [join]
    simp [hjoin, ih, List.count_append]
    omega

/-- A word has no line feed, whatever text it is made of. -/
theorem newline_not_mem_oneWord (text : String) : '\n' ∉ (oneWord text).toList := by
  rw [oneWord_eq]
  exact fun hmem => absurd (isSolid_underscored text _ hmem) (by decide)

/-- A name is written with the line feeds that it has, and with no others. -/
theorem count_newline_entity (name : String) :
    (entity name).toList.count '\n' = name.toList.count '\n' := by
  rw [toList_entity, enclose]
  split <;> simp [List.count_append]

/-- A line has the line feeds of the names that it shows. -/
theorem Item.count_line (i : Item) : i.line.text.toList.count '\n' =
    (i.names.map fun name => name.toList.count '\n').sum := by
  cases i with
  | title => decide
  | header t => simp [line, names, Line.text_header, List.count_append, count_newline_entity]
  | field f =>
    simp [line, names, Line.text_field, List.count_append,
      List.count_eq_zero.2 (newline_not_mem_oneWord _)]
  | closing => decide
  | reference r =>
    have hmarks := List.count_eq_zero.2 (Line.not_mem_marks r.source.symbol r.target.symbol).2
    simp [line, names, Line.toList_reference, List.count_append, count_newline_entity, hmarks]

/-- There is a line for each item, and one more for each line feed in a name. -/
theorem count_render (s : Schema) : (render s).toList.count '\n' =
    (items s).length + ((names s).map fun name => name.toList.count '\n').sum := by
  have hnames : ((items s).map fun i => i.line.text.toList.count '\n').sum =
      ((names s).map fun name => name.toList.count '\n').sum := by
    simp [names, Item.count_line, List.flatMap_def, List.sum_flatten, Function.comp_def]
  rw [render_eq_join, Line.count_join, List.length_map, List.map_map, ← hnames]
  rfl

/-- Lines are items exactly if no name has a line feed in it. -/
theorem count_render_eq_iff (s : Schema) : (render s).toList.count '\n' = (items s).length ↔
    ∀ name ∈ names s, '\n' ∉ name.toList := by
  rw [count_render, Nat.add_eq_left, List.sum_eq_zero_iff_forall_eq_nat]
  simp [List.count_eq_zero]

/-- Two texts that each begin with one line begin with the same if it has no line feed. -/
theorem eq_of_append_newline {xs ys us vs : List Char} (hxs : '\n' ∉ xs) (hys : '\n' ∉ ys)
    (h : xs ++ '\n' :: us = ys ++ '\n' :: vs) : xs = ys ∧ us = vs := by
  have htake := congrArg (List.takeWhile (· != '\n')) h
  rw [List.takeWhile_append_of_pos (Text.bne_of_not_mem hxs),
    List.takeWhile_append_of_pos (Text.bne_of_not_mem hys)] at htake
  obtain rfl : xs = ys := by simpa using htake
  simpa using h

/-- Lines without line feeds can be told apart in their text. -/
theorem Line.map_text_of_join_eq {ls ms : List Line} (hls : ∀ l ∈ ls, '\n' ∉ l.text.toList)
    (hms : ∀ m ∈ ms, '\n' ∉ m.text.toList) (h : join ls = join ms) :
    ls.map (·.text) = ms.map (·.text) := by
  induction ls generalizing ms with
  | nil =>
    cases ms with
    | nil => rfl
    | cons m ms => simp [join] at h
  | cons l ls ih =>
    cases ms with
    | nil => simp [join] at h
    | cons m ms =>
      have hlists : l.text.toList ++ '\n' :: (join ls).toList =
          m.text.toList ++ '\n' :: (join ms).toList := by
        simpa [join] using congrArg String.toList h
      obtain ⟨hline, hrest⟩ := eq_of_append_newline (hls l List.mem_cons_self)
        (hms m List.mem_cons_self) hlists
      have hmore := ih (fun l hl => hls l (List.mem_cons_of_mem _ hl))
        (fun m hm => hms m (List.mem_cons_of_mem _ hm)) (String.toList_inj.1 hrest)
      rw [List.map_cons, List.map_cons, hmore, String.toList_inj.1 hline]

/-! ## Itemized texts -/

/-- A text is one line for each item of a schema, with well-formed entities for its tables. -/
def IsItemized (s : Schema) (text : String) : Prop :=
  ∃ ls : List Line, text = Line.join ls ∧ (∀ l ∈ ls, '\n' ∉ l.text.toList) ∧
    List.Forall₂ Item.IsShownBy (items s) ls

namespace Item

/-- The line of an item shows it if its names have characters and no quotes. -/
theorem isShownBy_line {i : Item} (h : ∀ name ∈ i.names, name ≠ "" ∧ '"' ∉ name.toList) :
    i.IsShownBy i.line := by
  have hentity : ∀ name ∈ i.names, IsEntity (entity name).toList := by
    intro name hname
    rw [toList_entity, isEntity_enclose_iff]
    simpa using h name hname
  cases i with
  | title => exact .title
  | header t => exact .header (hentity _ (by simp [names]))
  | field f => exact .field
  | closing => exact .closing
  | reference r => exact .reference (hentity _ (by simp [names])) (hentity _ (by simp [names]))

/-- The names in a line can be seen to be written as entities. -/
theorem names_of_isShownBy {i : Item} {l : Line} (h : i.IsShownBy l)
    (htext : l.text = i.line.text) : ∀ name ∈ i.names, name ≠ "" ∧ '"' ∉ name.toList := by
  have htext := congrArg String.toList htext
  cases h with
  | title | field | closing => simp [names]
  | @header t e he =>
    have hentity : e.toList = enclose t.name.toList := by
      simpa [line, Line.text_header, toList_entity] using htext
    rw [hentity, isEntity_enclose_iff] at he
    simpa [names] using he
  | @reference r source target hsource htarget =>
    rw [line, Line.toList_reference, Line.toList_reference, toList_entity, toList_entity] at htext
    have hentities := (List.cons.inj (List.cons.inj (List.append_cancel_right htext)).2).2
    have hquote (a b : String) : (Line.marks a b).count '"' = 0 :=
      List.count_eq_zero.2 (Line.not_mem_marks a b).1
    have hnames := hsource.names_of_append htarget ((hquote _ _).trans (hquote _ _).symm) hentities
    simpa [names] using hnames

end Item

/-- A text that is one line for each item shows the names of tables as entities. -/
theorem names_of_forall₂ {is : List Item} {ls : List Line} (h : List.Forall₂ Item.IsShownBy is ls)
    (htext : ls.map (·.text) = is.map (·.line.text)) :
    ∀ i ∈ is, ∀ name ∈ i.names, name ≠ "" ∧ '"' ∉ name.toList := by
  induction h with
  | nil => simp
  | cons hshown _ ih =>
    obtain ⟨hfirst, hrest⟩ := List.cons.inj htext
    rintro i (_ | ⟨_, hi⟩)
    · exact Item.names_of_isShownBy hshown hfirst
    · exact ih hrest i hi

/-- A name that a diagram can show. -/
structure IsDrawable (name : String) : Prop where
  ne_empty : name ≠ ""
  quote_not_mem : '"' ∉ name.toList
  newline_not_mem : '\n' ∉ name.toList

variable {s : Schema}

/-- The lines of a diagram have no line feeds if the names have none. -/
theorem newline_not_mem_line (h : ∀ name ∈ names s, '\n' ∉ name.toList) :
    ∀ l ∈ (items s).map (·.line), '\n' ∉ l.text.toList := by
  intro l hl
  obtain ⟨i, hi, rfl⟩ := List.mem_map.1 hl
  rw [← List.count_eq_zero, Item.count_line, List.sum_eq_zero_iff_forall_eq_nat]
  intro n hn
  obtain ⟨name, hname, rfl⟩ := List.mem_map.1 hn
  exact List.count_eq_zero.2 (h name (List.mem_flatMap.2 ⟨i, hi, hname⟩))

/-- A diagram of drawable names has one line for each item, with well-formed entities. -/
theorem isItemized_render (h : ∀ name ∈ names s, IsDrawable name) : IsItemized s (render s) := by
  refine ⟨_, render_eq_join s, ?_, ?_⟩
  · exact newline_not_mem_line fun name hname => (h name hname).newline_not_mem
  rw [List.forall₂_map_right_iff, List.forall₂_same]
  intro i hi
  refine Item.isShownBy_line fun name hname => ?_
  have hdrawable := h name (List.mem_flatMap.2 ⟨i, hi, hname⟩)
  exact ⟨hdrawable.ne_empty, hdrawable.quote_not_mem⟩

/-- A diagram that has one line for each item, with well-formed entities, has drawable names only:
other names would break a line, or leave a line with the wrong quotes. -/
theorem isDrawable_of_isItemized (h : IsItemized s (render s)) :
    ∀ name ∈ names s, IsDrawable name := by
  obtain ⟨ls, htext, hnewline, hshown⟩ := h
  -- No line ends early, so there are as many line feeds as items.
  have hcount : (render s).toList.count '\n' = (items s).length := by
    have hsum : (ls.map fun l => l.text.toList.count '\n').sum = 0 := by
      rw [List.sum_eq_zero_iff_forall_eq_nat]
      simpa [List.count_eq_zero] using hnewline
    rw [htext, Line.count_join, hsum, hshown.length_eq, Nat.add_zero]
  have hnames := (count_render_eq_iff s).1 hcount
  rw [render_eq_join] at htext
  have hlines := Line.map_text_of_join_eq hnewline (newline_not_mem_line hnames) htext.symm
  intro name hname
  obtain ⟨i, hi, hmem⟩ := List.mem_flatMap.1 hname
  rw [List.map_map] at hlines
  obtain ⟨hne, hquote⟩ := names_of_forall₂ hshown hlines i hi name hmem
  exact ⟨hne, hquote, hnames name hname⟩

/-- A diagram ends with a line feed. -/
theorem getLast?_render (s : Schema) : (render s).toList.getLast? = some '\n' := by
  have hjoin (ls : List Line) (hne : ls ≠ []) : (Line.join ls).toList.getLast? = some '\n' := by
    rw [← List.dropLast_concat_getLast hne, Line.join, List.map_append]
    simp
  rw [render_eq_join]
  exact hjoin _ (by simp [items])

/-! ## The theorem -/

/-- **A diagram is one line for each item** with well-formed entities, exactly if every name of a
table in it has a character, and no quote and no line feed.  Whatever the names are, every line
ends, and there is a line for the title, for the header, the closing and the fields of each table
and for each reference, and one more for each line feed in a name. -/
theorem isItemized_render_iff (s : Schema) :
    (IsItemized s (render s) ↔ ∀ name ∈ names s, IsDrawable name) ∧
      (render s).toList.getLast? = some '\n' ∧
      (render s).toList.count '\n' =
        1 + (s.tables.map fun t => 2 + t.fields.length).sum + s.references.length +
          ((names s).map fun name => name.toList.count '\n').sum :=
  ⟨⟨isDrawable_of_isItemized, isItemized_render⟩, getLast?_render s, by
    rw [count_render, length_items]⟩

/-- A source whose one table has a name that cannot be drawn is not itemized. -/
theorem not_isItemized_of_ofSource {source name : String}
    (hs : Schema.ofSource source = .ok ⟨[⟨name, none, []⟩], []⟩) (hname : ¬ IsDrawable name) :
    ¬ ∀ s, Schema.ofSource source = .ok s → IsItemized s (render s) := by
  intro h
  have hmem : name ∈ names ⟨[⟨name, none, []⟩], []⟩ := by
    simp [names, items, tableItems, Item.names]
  exact hname (isDrawable_of_isItemized (h _ hs) name hmem)

/-- Diagrams of a table whose name has a line feed, a quote and no character are not itemized. -/
theorem not_isItemized_of_quoted :
    (¬ ∀ s, Schema.ofSource "Table \"a\\nb\" \x7b\x7d" = .ok s → IsItemized s (render s)) ∧
      (¬ ∀ s, Schema.ofSource "Table \"a\\\"b\" \x7b\x7d" = .ok s → IsItemized s (render s)) ∧
      ¬ ∀ s, Schema.ofSource "Table \"\" \x7b\x7d" = .ok s → IsItemized s (render s) := by
  have hfeed : ¬ IsDrawable "a\nb" := fun h => h.newline_not_mem (by decide)
  have hquote : ¬ IsDrawable "a\"b" := fun h => h.quote_not_mem (by decide)
  have hempty : ¬ IsDrawable "" := fun h => h.ne_empty rfl
  exact ⟨not_isItemized_of_ofSource (by decide +kernel) hfeed,
    not_isItemized_of_ofSource (by decide +kernel) hquote,
    not_isItemized_of_ofSource (by decide +kernel) hempty⟩

end SchemaDiagram.Mermaid
