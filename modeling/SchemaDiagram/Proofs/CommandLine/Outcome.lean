import SchemaDiagram.CommandLine
import SchemaDiagram.Proofs.CommandLine.Arguments

/-!
# SchemaDiagram.Proofs.CommandLine.Outcome

What a run of the program leaves behind.

A run that fails prints why it failed and does nothing else.  One that succeeds prints a text or
writes it, and never both.  Which of the two depends on two flags alone: a text is written if
`--output` is given and `--locate` is not, and it is the one that is printed without `--output`.
-/

namespace SchemaDiagram.CommandLine

/-! ## Messages -/

/-- A line has its end, at least. -/
theorem line_ne_empty (s : String) : s ++ "\n" ≠ "" := fun h =>
  absurd (String.append_eq_empty_iff.1 h).2 (by decide)

/-- Lines begin with the first of them. -/
theorem join_lines_ne_empty {α : Type} (text : α → String) (x : α) (xs : List α) :
    String.join ((x :: xs).map fun x => text x ++ "\n") ≠ "" := by
  rw [List.map_cons, String.join_cons]
  exact fun h => line_ne_empty _ (String.append_eq_empty_iff.1 h).1

theorem usage_ne_empty (program : String) : usage program ≠ "" := join_lines_ne_empty id _ _

/-- Every mistake in arguments has a message. -/
theorem UsageError.message_ne_empty (program : String) (e : UsageError) :
    e.message program ≠ "" := by
  cases e with
  | noInput => exact usage_ne_empty program
  | missingValue | invalidFormat => exact line_ne_empty _
  | unknownOption arg =>
    exact fun h => usage_ne_empty program (String.append_eq_empty_iff.1 h).2

/-- A failure has something to say: a compilation does not fail without a diagnostic. -/
def RunError.Speaks : RunError → Prop
  | compilation _ ds => ds ≠ []
  | _ => True

/-- Every failure with something to say has a message. -/
theorem RunError.message_ne_empty {e : RunError} (h : e.Speaks) : e.message ≠ "" := by
  cases e with
  | compilation path ds =>
    obtain ⟨d, ds, rfl⟩ := List.exists_cons_of_ne_nil h
    exact join_lines_ne_empty (fun d : Diagnostic => path ++ ":" ++ d.text) d ds
  | read | write | layout | notFound => exact line_ne_empty _

namespace Options

variable {o p : Options} {files : Files} {e : RunError} {path text source id : String}

/-! ## Drawing -/

/-- The diagram of the document in the format that is asked for. -/
def draw (o : Options) (files : Files) : Except RunError String := do
  let source ← readFile files o.input
  let layout ← o.readLayout files
  o.render layout source

theorem readFile_of_ok (h : files.read path = .ok text) : readFile files path = .ok text := by
  rw [readFile, h]

/-- A failure to read a file has a message. -/
theorem speaks_of_readFile (h : readFile files path = .error e) : e.Speaks := by
  unfold readFile at h
  split at h
  · contradiction
  · cases h
    trivial

/-- The measures are those of the file that is named. -/
theorem readLayout_of_some (h : o.layout = some path) :
    o.readLayout files =
      (readFile files path).bind fun text => (Layout.ofText text).mapError .layout := by
  unfold readLayout
  rw [h]
  dsimp only
  cases readFile files path with
  | error e => rfl
  | ok text =>
    simp only [bind, Except.bind]
    cases Layout.ofText text <;> rfl

/-- Without a file for them the measures are the usual ones. -/
theorem readLayout_of_none (h : o.layout = none) : o.readLayout files = .ok {} := by
  unfold readLayout
  rw [h]
  rfl

/-- A failure to read measures has a message, whether the file or its text is at fault. -/
theorem speaks_of_readLayout (h : o.readLayout files = .error e) : e.Speaks := by
  cases hpath : o.layout with
  | none =>
    rw [readLayout_of_none hpath] at h
    contradiction
  | some path =>
    rw [readLayout_of_some hpath] at h
    cases hread : readFile files path with
    | error e' =>
      rw [hread] at h
      cases h
      exact speaks_of_readFile hread
    | ok text =>
      rw [hread, Except.bind] at h
      cases hlayout : Layout.ofText text with
      | error e' =>
        rw [hlayout] at h
        cases h
        trivial
      | ok l =>
        rw [hlayout] at h
        contradiction

/-- A diagram is not drawn only if there is a diagnostic to print. -/
theorem speaks_of_render {layout : Layout} (h : o.render layout source = .error e) : e.Speaks := by
  unfold render at h
  split at h
  · dsimp only at h
    split at h
    · contradiction
    · rename_i hok
      cases h
      exact fun hnil => hok (List.isEmpty_iff.2 hnil)
  · split at h
    · contradiction
    · cases h
      exact List.cons_ne_nil _ _

/-- A failure to draw has a message, from wherever it comes. -/
theorem speaks_of_draw (h : o.draw files = .error e) : e.Speaks := by
  unfold draw at h
  cases hsource : readFile files o.input with
  | error e' =>
    rw [hsource] at h
    cases h
    exact speaks_of_readFile hsource
  | ok source =>
    cases hlayout : o.readLayout files with
    | error e' =>
      rw [hsource, hlayout] at h
      cases h
      exact speaks_of_readLayout hlayout
    | ok layout =>
      rw [hsource, hlayout] at h
      exact speaks_of_render h

/-! ## Runs -/

/-- An element is looked for in the document, and nothing else is read. -/
theorem run_of_locate (hid : o.locate = some id) :
    o.run files = match readFile files o.input with
      | .error e => .error e
      | .ok source =>
        match Locator.find? source id with
        | some span => .ok (.printed span.text)
        | none => .error (.notFound id o.input) := by
  rw [run]
  cases readFile files o.input with
  | error e => rfl
  | ok source =>
    simp only [hid]
    rfl

/-- Otherwise the diagram is drawn, and then it is printed or written. -/
theorem run_of_draw (h : o.locate = none) :
    o.run files = match o.draw files with
      | .error e => .error e
      | .ok text =>
        match o.output with
        | none => .ok (.printed text)
        | some path =>
          match files.refuses path with
          | some fault => .error (.write path fault)
          | none => .ok (.written path text) := by
  rw [run, draw]
  cases readFile files o.input with
  | error e => rfl
  | ok source =>
    simp only [h]
    cases o.readLayout files with
    | error e => rfl
    | ok layout =>
      cases hrender : o.render layout source with
      | error e => simp only [hrender, bind, Except.bind]
      | ok text =>
        simp only [hrender, bind, Except.bind]
        cases o.output with
        | none => rfl
        | some path => cases files.refuses path <;> rfl

/-- A run fails and says why; or it prints a text, if an element is looked for or no output is
named; or it writes the diagram to the output that is named. -/
theorem run_cases (o : Options) (files : Files) :
    (∃ e, o.run files = .error e ∧ e.Speaks) ∨
    (∃ text, o.run files = .ok (.printed text) ∧ (o.output = none ∨ o.locate ≠ none)) ∨
    ∃ path text, o.run files = .ok (.written path text) ∧ o.locate = none ∧
      o.output = some path ∧ o.draw files = .ok text := by
  cases hid : o.locate with
  | some id =>
    rw [run_of_locate hid]
    cases hsource : readFile files o.input with
    | error e => exact .inl ⟨e, rfl, speaks_of_readFile hsource⟩
    | ok source =>
      cases hspan : Locator.find? source id with
      | none => exact .inl ⟨.notFound id o.input, by simp only [hspan], trivial⟩
      | some span => exact .inr (.inl ⟨span.text, by simp only [hspan], .inr (by simp)⟩)
  | none =>
    rw [run_of_draw hid]
    cases hdraw : o.draw files with
    | error e => exact .inl ⟨e, rfl, speaks_of_draw hdraw⟩
    | ok text =>
      cases houtput : o.output with
      | none => exact .inr (.inl ⟨text, rfl, .inl rfl⟩)
      | some path =>
        cases hrefuses : files.refuses path with
        | some fault => exact .inl ⟨.write path fault, by simp only [hrefuses], trivial⟩
        | none => exact .inr (.inr ⟨path, text, by simp only [hrefuses], rfl, rfl, rfl⟩)

/-- Where the output goes does not matter for the diagram. -/
theorem draw_with_output (o : Options) (output : Option String) (files : Files) :
    ({ o with output } : Options).draw files = o.draw files := rfl

end Options

/-! ## Outcomes -/

namespace Outcome

/-- A run that fails prints why, and changes nothing. -/
structure Fails (r : Outcome) : Prop where
  exitCode : r.exitCode = 1
  stdout : r.stdout = ""
  stderr : r.stderr ≠ ""
  written : r.written = none

/-- A run that succeeds and prints a text. -/
structure Prints (r : Outcome) : Prop where
  exitCode : r.exitCode = 0
  stdout : r.stdout ≠ ""
  stderr : r.stderr = ""
  written : r.written = none

/-- A run that succeeds and writes a text to a path, and nothing else. -/
structure Writes (r : Outcome) (path text : String) : Prop where
  exitCode : r.exitCode = 0
  stdout : r.stdout = ""
  stderr : r.stderr = ""
  written : r.written = some (path, text)

end Outcome

variable {o : Options} {args : List String}

/-- Without its output, a command has the same options otherwise. -/
theorem ofArgs_without_output (h : Options.ofArgs args = .ok o) :
    Options.ofArgs (Flag.output.without args) = .ok { o with output := none } := by
  obtain ⟨p, hp, hinput, hvalues⟩ := Options.exists_ofArgs_without h .output
  have heq : p = { o with output := none } := by
    refine Options.eq_of_value? hinput fun flag => ?_
    rw [hvalues flag]
    cases flag <;> rfl
  rw [hp, heq]

/-- A flag without a usual value has one only if it is given. -/
theorem given_eq_nil_iff (h : Options.ofArgs args = .ok o) {flag : Flag}
    (husual : ({ input := o.input } : Options).value? flag = none) :
    flag.given args = [] ↔ o.value? flag = none := by
  rw [Options.value?_ofArgs h, husual]
  simp

/-- **A run is all or nothing.**  Either it fails with exit code 1, prints nothing but why, and
writes no file.  Or it succeeds with exit code 0 and without a message.  Then it prints a text and
writes no file, and no output was named or an element was looked for.  Or it prints nothing and
writes one file, which is the output that was named last; no element was looked for, and the text,
with a line feed behind it, is what the same command prints without the output. -/
theorem execute_allOrNothing (program : String) (files : Files) (args : List String) :
    (execute program files args).Fails ∨
    ((execute program files args).Prints ∧
      (Flag.output.given args = [] ∨ Flag.locate.given args ≠ [])) ∨
    ∃ path text, (execute program files args).Writes path text ∧
      (Flag.output.given args).getLast? = some path ∧ Flag.locate.given args = [] ∧
      execute program files (Flag.output.without args) =
        { exitCode := 0, stdout := text ++ "\n" } := by
  cases hargs : Options.ofArgs args with
  | error e =>
    simp only [execute, hargs]
    exact .inl ⟨rfl, rfl, e.message_ne_empty program, rfl⟩
  | ok o =>
    have hlocate : Flag.locate.given args = [] ↔ o.locate = none := given_eq_nil_iff hargs rfl
    have houtput : Flag.output.given args = [] ↔ o.output = none := given_eq_nil_iff hargs rfl
    rcases o.run_cases files with ⟨e, hrun, hspeaks⟩ | ⟨text, hrun, hprinted⟩ |
      ⟨path, text, hrun, hnone, hpath, hdraw⟩
    · simp only [execute, hargs, hrun]
      exact .inl ⟨rfl, rfl, RunError.message_ne_empty hspeaks, rfl⟩
    · simp only [execute, hargs, hrun]
      refine .inr (.inl ⟨⟨rfl, line_ne_empty text, rfl, rfl⟩, ?_⟩)
      rwa [Ne, houtput, hlocate]
    · have hlast := Options.value?_ofArgs hargs .output
      rw [Options.value?, hpath, Options.value?, Option.or_none] at hlast
      have hprints : ({ o with output := none } : Options).run files = .ok (.printed text) := by
        have hnone' : ({ o with output := none } : Options).locate = none := hnone
        rw [Options.run_of_draw hnone', Options.draw_with_output, hdraw]
      simp only [execute, hargs, hrun, ofArgs_without_output hargs, hprints]
      exact .inr (.inr ⟨path, text, ⟨rfl, rfl, rfl, rfl⟩, hlast.symm, hlocate.2 hnone, rfl⟩)

end SchemaDiagram.CommandLine
