import SchemaDiagram.Proofs.Session.Selection

/-!
# SchemaDiagram.Proofs.Session.Run

Sessions over whole runs, and how long a selection lasts.

An `Operation` is a call on a session with all of its arguments, and an `Outcome` what the caller
gets.  Of the operations only those that take over a compilation change the tables that a session
knows (`tableNames_perform`), so that after any run it knows those of the last one
(`tableNames_run`).  With these a new compilation is compared, as a list: the selection outlasts it
exactly if it has the same tables in the same order (`selected_compile_iff`).
-/

namespace SchemaDiagram.Session

/-! ## Operations -/

/-- A call on a session. -/
inductive Operation where
  /-- The text is compiled anew, and its tables taken over if it compiles. -/
  | compile (a : Appearance) (source : String)
  /-- The tables of a compilation from elsewhere are taken over. -/
  | adopt (c : Compilation)
  | select (id : String)
  | deselect
  /-- The place of an element is shown. -/
  | openAt (source id : String)
  /-- The place of a diagnostic is shown. -/
  | showDiagnostic (d : Diagnostic)
  /-- The selection is marked in a compilation. -/
  | mark (c : Compilation)

/-- What a call gives back. -/
inductive Outcome where
  | nothing
  /-- A marked compilation. -/
  | diagram (c : Compilation)
  /-- The place of an element, if it has one, and what the editor has to do. -/
  | opened (span : Option Span) (calls : List EditorCall)
  /-- What the editor has to do. -/
  | shown (calls : List EditorCall)

/-- The compilation that an operation takes over. -/
def Operation.adopted? : Operation → Option Compilation
  | .compile a source =>
    let c := Compilation.ofSource a source
    if c.isOk then some c else none
  | .adopt c => some c
  | .select _ | .deselect | .openAt _ _ | .showDiagnostic _ | .mark _ => none

/-- The compilation that operations took over last, the empty one if they took over none. -/
def lastAdopted (ops : List Operation) : Compilation := (ops.filterMap (·.adopted?)).getLastD {}

/-- An operation on a session. -/
def perform (s : Session) : Operation → Session × Outcome
  | .compile a source => ((s.compile a source).1, .diagram (s.compile a source).2)
  | .adopt c => (s.adopt c, .nothing)
  | .select id => (s.select id, .nothing)
  | .deselect => (s.deselect, .nothing)
  | .openAt source id => (s, .opened (s.open? source id).1 (s.open? source id).2)
  | .showDiagnostic d => (s, .shown (showDiagnostic d))
  | .mark c => (s, .diagram (s.mark c))

/-- A session after operations. -/
def run (s : Session) (ops : List Operation) : Session := ops.foldl (fun s op => (s.perform op).1) s

variable {s : Session}

@[simp] theorem run_nil (s : Session) : s.run [] = s := rfl

@[simp] theorem run_cons (s : Session) (op : Operation) (ops : List Operation) :
    s.run (op :: ops) = (s.perform op).1.run ops := rfl

/-! ## Compiling -/

/-- A text that compiles is taken over like a compilation from elsewhere. -/
theorem compile_of_isOk {a : Appearance} {source : String}
    (h : (Compilation.ofSource a source).isOk = true) :
    (s.compile a source).1 =
      { s.adopt (Compilation.ofSource a source) with
        diagnostics := some (Compilation.ofSource a source).diagnostics } := by
  simp only [compile, h, if_true]

/-- A text that does not compile changes what is reported, and nothing else. -/
theorem compile_of_not_isOk {a : Appearance} {source : String}
    (h : (Compilation.ofSource a source).isOk = false) :
    (s.compile a source).1 =
      { s with diagnostics := some (Compilation.ofSource a source).diagnostics } := by
  simp only [compile, h, Bool.false_eq_true, if_false]

/-! ## The tables that are known -/

/-- An operation changes the tables that are known only to those it takes over. -/
theorem tableNames_perform (s : Session) (op : Operation) :
    (s.perform op).1.tableNames = (op.adopted?.map (·.tableNames)).getD s.tableNames := by
  cases op with
  | compile a source =>
    cases h : (Compilation.ofSource a source).isOk with
    | true => simp [perform, compile_of_isOk h, Operation.adopted?, h, tableNames_adopt]
    | false => simp [perform, compile_of_not_isOk h, Operation.adopted?, h]
  | adopt c => exact tableNames_adopt s c
  | select id => rfl
  | deselect => rfl
  | openAt source id => rfl
  | showDiagnostic d => rfl
  | mark c => rfl

/-- After operations the tables of the last compilation that they took over are known, or those from
before. -/
theorem tableNames_run_of_eq {c : Compilation} (h : s.tableNames = c.tableNames)
    (ops : List Operation) :
    (s.run ops).tableNames = ((ops.filterMap (·.adopted?)).getLastD c).tableNames := by
  induction ops generalizing s c with
  | nil => exact h
  | cons op ops ih =>
    have hstep := tableNames_perform s op
    rw [run_cons]
    cases hop : op.adopted? with
    | none =>
      rw [List.filterMap_cons_none hop]
      exact ih (by rw [hstep, hop, Option.map_none, Option.getD_none, h])
    | some adopted =>
      rw [List.filterMap_cons_some hop, List.getLastD_cons]
      exact ih (by rw [hstep, hop, Option.map_some, Option.getD_some])

/-- A session knows the tables that it took over last. -/
theorem tableNames_run (ops : List Operation) :
    (run {} ops).tableNames = (lastAdopted ops).tableNames :=
  tableNames_run_of_eq rfl ops

/-! ## How long a selection lasts -/

/-- **A selection outlasts a compilation exactly if the tables are the same as those last taken over,
in the same order and number**, whatever happened before; otherwise nothing is selected. -/
theorem selected_compile_iff (ops : List Operation) {a : Appearance} {source t : String}
    (hok : (Compilation.ofSource a source).isOk = true)
    (ht : (run {} ops).selected = some t) :
    (((run {} ops).compile a source).1.selected = some t ↔
      (Compilation.ofSource a source).tableNames = (lastAdopted ops).tableNames) ∧
    ((Compilation.ofSource a source).tableNames ≠ (lastAdopted ops).tableNames →
      ((run {} ops).compile a source).1.selected = none) := by
  have hselected : ((run {} ops).compile a source).1.selected =
      if (Compilation.ofSource a source).tableNames = (lastAdopted ops).tableNames then some t
      else none := by
    rw [compile_of_isOk hok, ← tableNames_run, ← ht]
    exact selected_adopt _ _
  rw [hselected]
  refine ⟨?_, fun hne => if_neg hne⟩
  simp

/-- Two tables, the first of them selected, and then a text that does not compile. -/
def selecting : List Operation :=
  [.compile {} "Table a \x7b\x7d\nTable b \x7b\x7d\n", .select "a.header",
    .compile {} "Table a \x7b"]

/-- The two tables, the first of them with a field. -/
def extended : String := "Table a \x7b\n  id int\n\x7d\nTable b \x7b\x7d\n"

/-- One more field does not matter: the tables are the same. -/
theorem selected_compile_extended :
    (Compilation.ofSource {} extended).isOk = true ∧ (run {} selecting).selected = some "a" ∧
      ((run {} selecting).compile {} extended).1.selected = some "a" := by
  have hok : (Compilation.ofSource {} extended).isOk = true := by decide +kernel
  have hselected : (run {} selecting).selected = some "a" := by decide +kernel
  refine ⟨hok, hselected, (selected_compile_iff selecting hok hselected).1.2 ?_⟩
  decide +kernel

/-- The two tables in the other order. -/
def reordered : String := "Table b \x7b\x7d\nTable a \x7b\x7d\n"

/-- That the tables are the same in any order is not enough. -/
theorem not_outlasts_reordered : ¬ ∀ (ops : List Operation) (a : Appearance) (source t : String),
    (Compilation.ofSource a source).isOk = true → (run {} ops).selected = some t →
    (((run {} ops).compile a source).1.selected = some t ↔
      ∀ name, name ∈ (Compilation.ofSource a source).tableNames ↔
        name ∈ (lastAdopted ops).tableNames) := by
  intro h
  have hselected : (run {} selecting).selected = some "a" := by decide +kernel
  have hiff := h selecting {} reordered "a" (by decide +kernel) hselected
  have hlost : ((run {} selecting).compile {} reordered).1.selected = none := by decide +kernel
  have hnew : (Compilation.ofSource {} reordered).tableNames = ["b", "a"] := by decide +kernel
  have hlast : (lastAdopted selecting).tableNames = ["a", "b"] := by decide +kernel
  rw [hlost, hnew, hlast] at hiff
  have hsame : ∀ name, name ∈ ["b", "a"] ↔ name ∈ ["a", "b"] := fun name => by simp [or_comm]
  exact absurd (hiff.2 hsame) (by simp)

end SchemaDiagram.Session
