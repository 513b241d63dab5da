import SchemaDiagram.Proofs.Session.Marking
import SchemaDiagram.Proofs.Token.Spelling

/-!
# SchemaDiagram.Proofs.Session.Selection

What is selected while a document is being edited.

`Editing` is a session beside the compilation that it last took over, and `Event` what can happen to
them.  One event after the other keeps the selection in the compilation (`Sound.after`), so that it
never dangles, however long the editing goes on (`Reached.selected_mem`).
-/

namespace SchemaDiagram

/-! ## Plain names -/

/-- The node of a part of such a table is read back to the table. -/
theorem Diagram.Part.tableName_ofNode {t : Schema.Table} {n : Node} (h : Part t n)
    (hname : IsReadable t.name) : (Element.ofNode n.id).tableName = t.name := by
  cases h with
  | container _ hid _ => rw [hid, tableName_ofNode_tableNode, nodeTable_of_isReadable hname]
  | header _ hid =>
    rw [hid, headerNode, Element.tableName_ofNode_fieldNode, beforePoint_of_not_mem hname.1]
  | field f _ _ hid =>
    rw [hid, Element.tableName_ofNode_fieldNode, beforePoint_of_not_mem hname.1]

/-- A document whose tables can be named without quotes. -/
def HasPlainTables (source : String) : Prop :=
  ∀ s, Schema.ofSource source = .ok s → ∀ t ∈ s.tables, IsIdentifier t.name.toList

/-- A diagram all of whose nodes are read back to one of its tables, and every container to its
own. -/
def Compilation.IsPlain (c : Compilation) : Prop :=
  ∀ n ∈ c.nodes, (Element.ofNode n.id).tableName ∈ c.tableNames ∧
    (n.kind = .container → (Element.ofNode n.id).tableName = n.label)

namespace Compilation

/-- The tables of a diagram are those of its schema. -/
theorem tableNames_ofSchema (a : Appearance) (s : Schema) :
    (ofSchema a s).tableNames = s.tableNames :=
  Diagram.labels_of_containers a.layout a.theme s

/-- A table is in a diagram if it has a container there. -/
theorem mem_tableNames {c : Compilation} {t : String} :
    t ∈ c.tableNames ↔ ∃ n ∈ c.nodes, n.kind = .container ∧ n.label = t := by
  simp [tableNames, and_assoc]

theorem isPlain_of_nil {c : Compilation} (h : c.nodes = []) : c.IsPlain := by
  simp [IsPlain, h]

/-- The diagram of a schema is plain if the names of its tables can be read back. -/
theorem isPlain_ofSchema (a : Appearance) {s : Schema} (h : ∀ t ∈ s.tables, IsReadable t.name) :
    (ofSchema a s).IsPlain := by
  intro n hn
  obtain ⟨t, ht, hpart, _⟩ := Diagram.exists_part hn
  have htable : (Element.ofNode n.id).tableName = t.name := hpart.tableName_ofNode (h t ht)
  rw [htable, tableNames_ofSchema]
  refine ⟨List.mem_map_of_mem ht, fun hkind => ?_⟩
  cases hpart with
  | container _ _ hlabel => exact hlabel.symm
  | header hheader _ => exact absurd (hheader.symm.trans hkind) (by decide)
  | field f _ hfield _ => exact absurd (hfield.symm.trans hkind) (by decide)

/-- A text with plain tables has a plain diagram, or none. -/
theorem isPlain_ofSource (a : Appearance) {source : String} (h : HasPlainTables source) :
    (ofSource a source).IsPlain := by
  unfold ofSource
  split
  · exact isPlain_of_nil rfl
  · split
    · rename_i s hs
      exact isPlain_ofSchema a fun t ht => isReadable_of_isIdentifier (h s hs t ht)
    · exact isPlain_of_nil rfl

/-- The tables do not depend on the marks. -/
theorem tableNames_unmarked (c : Compilation) : c.unmarked.tableNames = c.tableNames := by
  simp [tableNames, unmarked, List.filter_map, Function.comp_def, Node.unmarked]

/-- Whether a diagram is plain does not depend on the marks. -/
theorem isPlain_unmarked {c : Compilation} : c.unmarked.IsPlain ↔ c.IsPlain := by
  rw [IsPlain, IsPlain, tableNames_unmarked]
  simp [unmarked, Node.unmarked]

/-- Marking a diagram leaves its tables as they are. -/
theorem tableNames_mark (session : Session) (c : Compilation) :
    (session.mark c).tableNames = c.tableNames := by
  rw [← tableNames_unmarked, Session.unmarked_mark, tableNames_unmarked]

/-- A plain diagram is plain with marks. -/
theorem isPlain_mark {c : Compilation} (session : Session) (h : c.IsPlain) :
    (session.mark c).IsPlain := by
  rw [← isPlain_unmarked, Session.unmarked_mark, isPlain_unmarked]
  exact h

end Compilation

/-! ## Editing -/

/-- A session, and the compilation that it last took over. -/
structure Editing where
  session : Session := {}
  shown : Compilation := {}

/-- What happens to an open document. -/
inductive Event where
  /-- The text is compiled anew, and its diagram taken over if there is one. -/
  | compile (a : Appearance) (source : String)
  /-- A compilation from elsewhere is taken over. -/
  | adopt (c : Compilation)
  | select (id : String)
  | deselect
  | mark
  /-- The place of an element is shown. -/
  | openAt (source id : String)

namespace Editing

/-- What an event leaves behind. -/
def after (e : Editing) : Event → Editing
  | .compile a source =>
    let (session, c) := e.session.compile a source
    ⟨session, if c.isOk then c else e.shown⟩
  | .adopt c => ⟨e.session.adopt c, c⟩
  | .select id => { e with session := e.session.select id }
  | .deselect => { e with session := e.session.deselect }
  | .mark => { e with shown := e.session.mark e.shown }
  | .openAt _ _ => e

/-- The documents have plain names, and what is selected is a node that is shown. -/
def Allows (e : Editing) : Event → Prop
  | .compile _ source => HasPlainTables source
  | .adopt c => ∃ a source, HasPlainTables source ∧ c.unmarked = .ofSource a source
  | .select id => ∃ n ∈ e.shown.nodes, n.id = id
  | .deselect | .mark | .openAt _ _ => True

/-- What editing comes to from a new session. -/
inductive Reached : Editing → Prop
  | start : Reached {}
  | step {e : Editing} {event : Event} : Reached e → e.Allows event → Reached (e.after event)

end Editing

/-! ## The session -/

namespace Session

variable {s : Session} {c : Compilation}

/-- A session knows the tables of the compilation that it has taken over. -/
theorem tableNames_adopt (s : Session) (c : Compilation) :
    (s.adopt c).tableNames = c.tableNames := by
  unfold adopt
  split
  · rename_i h
    exact h.symm
  · rfl

/-- The selection belongs to the tables that it was made among. -/
theorem selected_adopt (s : Session) (c : Compilation) :
    (s.adopt c).selected = if c.tableNames = s.tableNames then s.selected else none := by
  unfold adopt
  split <;> rfl

/-- A selection outlasts another compilation only if its table does. -/
theorem mem_of_selected_adopt (h : ∀ t, s.selected = some t → t ∈ s.tableNames) {t : String}
    (ht : (s.adopt c).selected = some t) : t ∈ c.tableNames := by
  rw [selected_adopt] at ht
  split at ht
  · rename_i hsame
    exact hsame ▸ h t ht
  · contradiction

/-- A node that is read back to a table that is known means this table. -/
theorem tableName_element {id : String} (h : (Element.ofNode id).tableName ∈ s.tableNames) :
    (s.element id).tableName = (Element.ofNode id).tableName := by
  unfold element
  cases hnode : Element.ofNode id with
  | table t =>
    have hknown : t ∈ s.tableNames := by
      rw [hnode] at h
      exact h
    simp [hknown]
  | header t => rfl
  | field t f => rfl

/-- A plain diagram shows that a table of it is selected. -/
theorem exists_selected_mark (h : c.IsPlain) :
    (∃ n ∈ (s.mark c).nodes, n.kind = .container ∧ n.isSelected = true) ↔
      ∃ t ∈ c.tableNames, s.selected = some t := by
  constructor
  · rintro ⟨n, hn, hkind, hselected⟩
    obtain ⟨m, hm, rfl⟩ := List.mem_map.1 hn
    have hkind' : m.kind = .container := hkind
    have hhas : s.hasSelected m.id = true := by simpa [hkind'] using hselected
    exact ⟨_, (h m hm).1, of_decide_eq_true hhas⟩
  · rintro ⟨t, ht, hselected⟩
    obtain ⟨m, hm, hkind, hlabel⟩ := Compilation.mem_tableNames.1 ht
    refine ⟨_, List.mem_map_of_mem hm, hkind, ?_⟩
    simp [hkind, hasSelected, hselected, (h m hm).2 hkind, hlabel]

end Session

/-! ## The invariant -/

namespace Editing

/-- The session knows the tables that are shown, and the selected table is one of them. -/
structure Sound (e : Editing) : Prop where
  known : e.session.tableNames = e.shown.tableNames
  plain : e.shown.IsPlain
  selected : ∀ t, e.session.selected = some t → t ∈ e.session.tableNames

/-- Nothing is selected in a new session. -/
theorem sound_start : Sound {} where
  known := rfl
  plain := Compilation.isPlain_of_nil rfl
  selected _ h := nomatch h

/-- To take over a plain diagram keeps the invariant: a selection that is not in it is dropped. -/
theorem Sound.adopt {e : Editing} (h : e.Sound) {c : Compilation} (hc : c.IsPlain) :
    Sound ⟨e.session.adopt c, c⟩ where
  known := Session.tableNames_adopt e.session c
  plain := hc
  selected t ht := by
    rw [Session.tableNames_adopt]
    exact Session.mem_of_selected_adopt h.selected ht

/-- What a session reports does not matter. -/
theorem Sound.report {e : Editing} (h : e.Sound) (ds : Option (List Diagnostic)) :
    Sound ⟨{ e.session with diagnostics := ds }, e.shown⟩ :=
  ⟨h.known, h.plain, h.selected⟩

/-- To mark the diagram that is shown changes neither its tables nor the selection. -/
theorem Sound.mark {e : Editing} (h : e.Sound) : Sound ⟨e.session, e.session.mark e.shown⟩ :=
  ⟨h.known.trans (Compilation.tableNames_mark e.session e.shown).symm,
    Compilation.isPlain_mark e.session h.plain, h.selected⟩

/-- A text with plain tables is taken over if it compiles, and leaves everything as it is if not. -/
theorem Sound.compile {e : Editing} (h : e.Sound) (a : Appearance) {source : String}
    (hplain : HasPlainTables source) : (e.after (.compile a source)).Sound := by
  cases hok : (Compilation.ofSource a source).isOk with
  | true =>
    have hc := Compilation.isPlain_ofSource a hplain
    have hmark : ∀ session : Session,
        (session.mark (Compilation.ofSource a source)).isOk = true := fun _ => hok
    simpa [Editing.after, Session.compile, hok, hmark] using ((h.adopt hc).report _).mark
  | false =>
    have hmark : ∀ session : Session,
        (session.mark (Compilation.ofSource a source)).isOk = false := fun _ => hok
    simpa [Editing.after, Session.compile, hok, hmark] using h.report _

/-- **One event leaves the selection in what is shown.** -/
theorem Sound.after {e : Editing} (h : e.Sound) {event : Event} (hallow : e.Allows event) :
    (e.after event).Sound := by
  cases event with
  | compile a source => exact h.compile a hallow
  | adopt c =>
    obtain ⟨a, source, hplain, hunmarked⟩ := hallow
    refine h.adopt (Compilation.isPlain_unmarked.1 ?_)
    rw [hunmarked]
    exact Compilation.isPlain_ofSource a hplain
  | select id =>
    obtain ⟨n, hn, rfl⟩ := hallow
    have hmem : (Element.ofNode n.id).tableName ∈ e.session.tableNames :=
      h.known ▸ (h.plain n hn).1
    refine ⟨h.known, h.plain, fun t ht => ?_⟩
    have htable : (e.session.element n.id).tableName = t := Option.some.inj ht
    rw [Session.tableName_element hmem] at htable
    exact htable ▸ hmem
  | deselect => exact ⟨h.known, h.plain, fun _ ht => nomatch ht⟩
  | mark => exact h.mark
  | openAt source id => exact h

/-- The invariant holds after any number of events. -/
theorem Reached.sound {e : Editing} (h : Reached e) : e.Sound := by
  induction h with
  | start => exact sound_start
  | step _ hallow ih => exact ih.after hallow

/-- **No selection dangles**: after any number of events the selected table, if there is one, is a
table of the diagram that was last taken over, and marking this diagram marks a container exactly
if a table is selected. -/
theorem Reached.selected_mem {e : Editing} (h : Reached e) :
    (∀ t, e.session.selected = some t → t ∈ e.shown.tableNames) ∧
      ((∃ n ∈ (e.session.mark e.shown).nodes, n.kind = .container ∧ n.isSelected = true) ↔
        e.session.selected ≠ none) := by
  have hsound := h.sound
  have hmem : ∀ t, e.session.selected = some t → t ∈ e.shown.tableNames := fun t ht =>
    hsound.known ▸ hsound.selected t ht
  refine ⟨hmem, ?_⟩
  rw [Session.exists_selected_mark hsound.plain, Option.ne_none_iff_exists']
  exact ⟨fun ⟨t, _, ht⟩ => ⟨t, ht⟩, fun ⟨t, ht⟩ => ⟨t, hmem t ht, ht⟩⟩

/-- A document with a table whose name ends in `parent`. -/
def opened : Editing := ({} : Editing).after (.compile {} "Table xparent \x7b\n  id int\n\x7d\n")

/-- Its table selected by the container, and the text then broken. -/
def broken : Editing :=
  (opened.after (.select "xparentparent")).after (.compile {} "Table xparent \x7b\n  id int;")

/-- A selection by a container whose table has a name in `parent` outlasts a text that does not
compile. -/
theorem selected_broken :
    Reached broken ∧ broken.session.selected = some "xparent" ∧
      "xparent" ∈ broken.shown.tableNames ∧
      ∃ n ∈ (broken.session.mark broken.shown).nodes, n.kind = .container ∧ n.isSelected = true := by
  have hplain : HasPlainTables "Table xparent \x7b\n  id int\n\x7d\n" := by
    intro s hs t ht
    have htables : (Schema.ofSource "Table xparent \x7b\n  id int\n\x7d\n").toOption.map (·.tables) =
      some [⟨"xparent", none, [⟨"id", "int", none⟩]⟩] := by decide +kernel
    have hnames : s.tables = [⟨"xparent", none, [⟨"id", "int", none⟩]⟩] := by
      simpa [hs, Except.toOption] using htables
    rw [hnames, List.mem_singleton] at ht
    subst ht
    have hrest : "parent".toList.all Lexeme.isNameChar = true := by decide
    exact ⟨[], 'x', "parent".toList, rfl, by simp, by decide, List.all_eq_true.1 hrest⟩
  have hfails : HasPlainTables "Table xparent \x7b\n  id int;" := by
    intro s hs
    have herror : (Schema.ofSource "Table xparent \x7b\n  id int;").toOption = none := by decide +kernel
    simp [hs, Except.toOption] at herror
  have hreached : Reached broken := by
    have hshown : "xparentparent" ∈ opened.shown.nodes.map (·.id) := by decide +kernel
    have hselect : opened.Allows (.select "xparentparent") := List.mem_map.1 hshown
    exact .step (.step (.step .start hplain) hselect) hfails
  have hselected : broken.session.selected = some "xparent" := by decide +kernel
  have h := hreached.selected_mem
  exact ⟨hreached, hselected, h.1 _ hselected, h.2.2 (by simp [hselected])⟩

end Editing

end SchemaDiagram
