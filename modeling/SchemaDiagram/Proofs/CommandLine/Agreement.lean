import SchemaDiagram.Proofs.CommandLine.Outcome
import SchemaDiagram.Proofs.Json.Blanks

/-!
# SchemaDiagram.Proofs.CommandLine.Agreement

The two surfaces draw the same diagrams.

`compileToText` takes texts and brings a compilation as a text, diagnostics included.  The command
line takes the same texts from files, and a compilation with diagnostics is a failure there.  Both
make the same compilation of a source, a theme and measures (`compiled`), and what the command line
leaves of it, as a diagram or as messages, is in the text of the other (`execute_agrees`).
-/

namespace SchemaDiagram

/-! ## The JSON forms have decimals -/

section

open Json (HasDecimals hasDecimals_optional)

/-- The numbers of a position are written in decimals. -/
theorem Position.hasDecimals_json (p : Position) : p.json.HasDecimals := .object (by simp)

/-- The numbers of a diagnostic are written in decimals. -/
theorem Diagnostic.hasDecimals_json (d : Diagnostic) : d.json.HasDecimals :=
  .object (by simp [d.location.hasDecimals_json])

/-- The coordinates of a point are written in decimals. -/
theorem Point.hasDecimals_json (p : Point) : p.json.HasDecimals := .object (by simp)

/-- The measures of a node are written in decimals. -/
theorem Size.hasDecimals_json (s : Size) : s.json.HasDecimals := .object (by simp)

/-- What a node shows is text, but for a mark of the selection: no number is in it. -/
theorem Node.hasDecimals_dataJson (n : Node) : n.dataJson.HasDecimals := by
  have hoptional := fun key value => hasDecimals_optional key Json.hasDecimals_string value
  refine .object ?_
  simp only [List.forall_mem_append]
  exact ⟨⟨⟨⟨by simp, hoptional _ _⟩, hoptional _ _⟩, hoptional _ _⟩, by simp⟩

/-- The numbers of a node are those of its place and its size. -/
theorem Node.hasDecimals_json (n : Node) : n.json.HasDecimals := by
  refine .object ?_
  simp only [List.forall_mem_append]
  exact ⟨⟨by simp [n.position.hasDecimals_json, n.size.hasDecimals_json],
    hasDecimals_optional _ Json.hasDecimals_string _⟩, by simp [n.hasDecimals_dataJson]⟩

/-- There are no numbers in an edge. -/
theorem Edge.hasDecimals_json (e : Edge) : e.json.HasDecimals := .object (by simp)

/-- All numbers of a compilation are written in decimals, so that it can be compared without its
blanks. -/
theorem Compilation.hasDecimals_json (c : Compilation) : c.json.HasDecimals := by
  have hnodes : (Json.array (c.nodes.map (·.json))).HasDecimals :=
    .array (List.forall_mem_map.2 fun n _ => n.hasDecimals_json)
  have hedges : (Json.array (c.edges.map (·.json))).HasDecimals :=
    .array (List.forall_mem_map.2 fun e _ => e.hasDecimals_json)
  have hdiagnostics : (Json.array (c.diagnostics.map (·.json))).HasDecimals :=
    .array (List.forall_mem_map.2 fun d _ => d.hasDecimals_json)
  exact .object (by simp [hnodes, hedges, hdiagnostics])

end

/-! ## The same compilation -/

/-- The measures that a text gives, or the usual ones. -/
def Layout.given : Option String → Except Layout.ReadError Layout
  | none => .ok {}
  | some text => Layout.ofText text

/-- The compilation of a source text, with a theme and measures that may be missing. -/
def compiled (source : String) (theme layout : Option String) :
    Except Layout.ReadError Compilation :=
  (Layout.given layout).map fun l =>
    Compilation.ofSource { layout := l, theme := theme.getD ({} : Appearance).theme } source

/-- `compileToText` writes the compilation in its compact form. -/
theorem compileToText_eq (source : String) (theme layout : Option String) :
    compileToText source theme layout =
      (compiled source theme layout).map fun c => c.json.compact := by
  unfold compileToText compiled
  cases layout with
  | none => rfl
  | some text =>
    dsimp only [Layout.given]
    cases Layout.ofText text <;> rfl

namespace CommandLine

variable {o : Options} {files : Files} {source : String} {theme layout : Option String}

/-- Options that ask for the diagram of a source in JSON, with a theme and measures: the files have
the texts of both, and if the diagram is to be written, then it can be. -/
structure Options.Draws (o : Options) (files : Files) (source : String)
    (theme layout : Option String) : Prop where
  format : o.format = .json
  locate : o.locate = none
  theme : o.theme = theme.getD ({} : Appearance).theme
  source : files.read o.input = .ok source
  layout : o.layout.map files.read = layout.map .ok
  writable : ∀ path ∈ o.output, files.refuses path = none

/-- What a run leaves of a diagram: the text that it writes, or else the one that it prints. -/
def Outcome.drawn (r : Outcome) : String :=
  match r.written with
  | some (_, text) => text
  | none => r.stdout

namespace Options.Draws

/-- The command line takes the measures from the text in the file. -/
theorem readLayout (h : o.Draws files source theme layout) :
    o.readLayout files = (Layout.given layout).mapError .layout := by
  have hlayout := h.layout
  cases hpath : o.layout with
  | none =>
    rw [hpath, Option.map_none, eq_comm, Option.map_eq_none_iff] at hlayout
    subst hlayout
    exact readLayout_of_none hpath
  | some path =>
    rw [hpath, Option.map_some, eq_comm, Option.map_eq_some_iff] at hlayout
    obtain ⟨text, rfl, hread⟩ := hlayout
    rw [readLayout_of_some hpath, readFile_of_ok hread.symm]
    rfl

/-- The diagram is the compilation, if that has no diagnostics. -/
theorem draw (h : o.Draws files source theme layout) :
    o.draw files = match compiled source theme layout with
      | .error e => .error (.layout e)
      | .ok c =>
        if c.diagnostics = [] then .ok c.json.pretty
        else .error (.compilation o.input c.diagnostics) := by
  rw [Options.draw, readFile_of_ok h.source, h.readLayout, compiled]
  cases Layout.given layout with
  | error e => rfl
  | ok l =>
    change o.render l source = _
    rw [render, h.format, h.theme]
    simp only [Except.map, Compilation.isOk, List.isEmpty_iff]

end Options.Draws

/-! ## The same diagram -/

/-- What is drawn of a compilation without diagnostics is its compact form, with blanks put in,
whether it is written to a file or printed. -/
theorem execute_of_ok {args : List String} {c : Compilation} (program : String)
    (hargs : Options.ofArgs args = .ok o) (hdraws : o.Draws files source theme layout)
    (hcompiled : compiled source theme layout = .ok c) (hdiagnostics : c.diagnostics = []) :
    (execute program files args).exitCode = 0 ∧
      Json.withoutBlanks (execute program files args).drawn = c.json.compact := by
  have hdraw := hdraws.draw
  rw [hcompiled] at hdraw
  simp only [if_pos hdiagnostics] at hdraw
  cases hpath : o.output with
  | none =>
    have hrun : o.run files = .ok (.printed c.json.pretty) := by
      rw [Options.run_of_draw hdraws.locate, hdraw, hpath]
    simp only [execute, hargs, hrun]
    exact ⟨trivial, Json.withoutBlanks_pretty_newline c.hasDecimals_json⟩
  | some path =>
    have hrun : o.run files = .ok (.written path c.json.pretty) := by
      rw [Options.run_of_draw hdraws.locate, hdraw, hpath]
      simp only [hdraws.writable path hpath]
    simp only [execute, hargs, hrun]
    exact ⟨trivial, Json.withoutBlanks_pretty c.hasDecimals_json⟩

/-- A message names the place in the file, the severity and the number of a diagnostic. -/
theorem line_of_diagnostic (path : String) (d : Diagnostic) :
    path ++ ":" ++ d.text ++ "\n" =
      path ++ ":" ++ toString d.location.line ++ ":" ++ toString d.location.column ++ ": "
        ++ d.severity.text ++ "[" ++ toString d.code ++ "]: " ++ d.message ++ "\n" := by
  simp only [Diagnostic.text, Position.text, String.append_assoc]

/-- A run that draws nothing prints its message and writes no file. -/
theorem execute_of_error {args : List String} {e : RunError} (program : String)
    (hargs : Options.ofArgs args = .ok o) (hlocate : o.locate = none)
    (hdraw : o.draw files = .error e) :
    execute program files args = { exitCode := 1, stderr := e.message } := by
  have hrun : o.run files = .error e := by rw [Options.run_of_draw hlocate, hdraw]
  simp only [execute, hargs, hrun]

/-- **The command line and `compileToText` agree.**  The text of the latter is the compact form of a
compilation, unless it rejects the measures.  The command line, which finds the same source, theme
and measures in its files, succeeds exactly if there is a compilation without diagnostics.  Then its
diagram, without blanks, is that text.  If there are diagnostics, it prints them on a line each, in
order, and no diagram. -/
theorem execute_agrees {args : List String} (program : String)
    (hargs : Options.ofArgs args = .ok o) (hdraws : o.Draws files source theme layout) :
    compileToText source theme layout =
        (compiled source theme layout).map (fun c => c.json.compact) ∧
      ((execute program files args).exitCode = 0 ↔
        ∃ c, compiled source theme layout = .ok c ∧ c.diagnostics = []) ∧
      ∀ c, compiled source theme layout = .ok c →
        (c.diagnostics = [] →
          Json.withoutBlanks (execute program files args).drawn = c.json.compact) ∧
        (c.diagnostics ≠ [] →
          (execute program files args).stdout = "" ∧
          (execute program files args).written = none ∧
          (execute program files args).stderr = String.join (c.diagnostics.map fun d =>
            o.input ++ ":" ++ toString d.location.line ++ ":" ++ toString d.location.column ++ ": "
              ++ d.severity.text ++ "[" ++ toString d.code ++ "]: " ++ d.message ++ "\n")) := by
  refine ⟨compileToText_eq source theme layout, ?_⟩
  cases hcompiled : compiled source theme layout with
  | error e =>
    have hdraw := hdraws.draw
    rw [hcompiled] at hdraw
    rw [execute_of_error program hargs hdraws.locate hdraw]
    exact ⟨by simp, by simp⟩
  | ok c =>
    by_cases hdiagnostics : c.diagnostics = []
    · obtain ⟨hcode, htext⟩ := execute_of_ok program hargs hdraws hcompiled hdiagnostics
      refine ⟨⟨fun _ => ⟨c, rfl, hdiagnostics⟩, fun _ => hcode⟩, fun c' hc' => ?_⟩
      cases hc'
      exact ⟨fun _ => htext, fun h => absurd hdiagnostics h⟩
    · have hdraw := hdraws.draw
      rw [hcompiled] at hdraw
      simp only [if_neg hdiagnostics] at hdraw
      rw [execute_of_error program hargs hdraws.locate hdraw]
      refine ⟨⟨by simp, ?_⟩, fun c' hc' => ?_⟩
      · rintro ⟨c', hc', hnil⟩
        cases hc'
        exact absurd hnil hdiagnostics
      · cases hc'
        refine ⟨fun h => absurd h hdiagnostics, fun _ => ⟨rfl, rfl, ?_⟩⟩
        exact congrArg String.join (List.map_congr_left fun d _ => line_of_diagnostic o.input d)

/-- A table whose block closes: both draw it. -/
theorem execute_agrees_closed :
    let files : Files := {
      read := fun _ => .ok "Table t \x7b\n  id int\n\x7d\n"
      refuses := fun _ => none }
    let outcome := execute "diagram" files ["t.dbml", "--theme", "dark"]
    outcome.exitCode = 0 ∧
      compileToText "Table t \x7b\n  id int\n\x7d\n" (some "dark") none =
        .ok (Json.withoutBlanks outcome.drawn) := by
  intro files outcome
  have hargs : Options.ofArgs ["t.dbml", "--theme", "dark"] =
      .ok { input := "t.dbml", theme := "dark" } := by rfl
  have hdraws : Options.Draws { input := "t.dbml", theme := "dark" } files
      "Table t \x7b\n  id int\n\x7d\n" (some "dark") none :=
    ⟨rfl, rfl, rfl, rfl, rfl, by simp⟩
  obtain ⟨htext, hcode, hdiagram⟩ := execute_agrees "diagram" hargs hdraws
  have hdiagnostics : (Compilation.ofSource { theme := "dark" }
      "Table t \x7b\n  id int\n\x7d\n").diagnostics = [] := by decide +kernel
  refine ⟨hcode.2 ⟨_, rfl, hdiagnostics⟩, htext.trans ?_⟩
  exact congrArg Except.ok ((hdiagram _ rfl).1 hdiagnostics).symm

end CommandLine

end SchemaDiagram
