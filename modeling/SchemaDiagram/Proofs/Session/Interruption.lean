import SchemaDiagram.Proofs.Session.Run

/-!
# SchemaDiagram.Proofs.Session.Interruption

Texts that do not compile, in between.

While a text is being typed it does not compile most of the time.  A run with such attempts put in
anywhere is compared with the run without them: sessions that are `Alike` differ in what they report
only, a failed attempt leaves a session alike (`alike_compile`), and one operation makes of sessions
that are alike sessions that are alike, with the same outcome (`Alike.perform`).  So the attempts
change no later outcome and no selection, and what is reported only up to the next compilation of
the run itself (`interruptions_pass`).
-/

namespace SchemaDiagram.Session

/-! ## Interrupted runs -/

/-- One step of a run with attempts put in. -/
inductive Step where
  | operation (op : Operation)
  /-- An attempt to compile a text that was put in. -/
  | attempt (a : Appearance) (source : String)

namespace Step

/-- Whether a step was there before attempts were put in. -/
def isOperation : Step → Bool
  | operation _ => true
  | attempt _ _ => false

/-- What a step calls: an attempt is a compilation like any other. -/
def call : Step → Operation
  | operation op => op
  | attempt a source => .compile a source

/-- What was put in does not compile. -/
def Fails : Step → Prop
  | operation _ => True
  | attempt a source => (Compilation.ofSource a source).isOk = false

end Step

/-- A run without the attempts that were put in. -/
def uninterrupted (steps : List Step) : List Step := steps.filter (·.isOperation)

/-- Whether nothing was put in since the run itself compiled a text, or nothing at all. -/
def IsCurrent (steps : List Step) : Prop :=
  (∀ step ∈ steps, step.isOperation = true) ∨
    ∃ before a source rest, steps = before ++ .operation (.compile a source) :: rest ∧
      ∀ step ∈ rest, step.isOperation = true

/-- A session after the steps of a run. -/
def follow (s : Session) (steps : List Step) : Session := s.run (steps.map (·.call))

/-- What the operations of a run give back, each with the selection that it leaves. -/
def observed (s : Session) : List Step → List (Outcome × Option String)
  | [] => []
  | .operation op :: steps =>
    ((s.perform op).2, (s.perform op).1.selected) :: observed (s.perform op).1 steps
  | .attempt a source :: steps => observed (s.perform (.compile a source)).1 steps

/-! ## Sessions that differ in their reports -/

/-- Two sessions differ in what they report at most. -/
structure Alike (s s' : Session) : Prop where
  selected : s.selected = s'.selected
  tableNames : s.tableNames = s'.tableNames

namespace Alike

variable {s s' s'' : Session}

theorem refl (s : Session) : s.Alike s := ⟨rfl, rfl⟩

theorem trans (h : s.Alike s') (h' : s'.Alike s'') : s.Alike s'' :=
  ⟨h.selected.trans h'.selected, h.tableNames.trans h'.tableNames⟩

/-- Both find the same element of a diagram. -/
theorem element (h : s.Alike s') (id : String) : s.element id = s'.element id := by
  simp only [Session.element, h.tableNames]

/-- Both mark the same nodes and edges. -/
theorem mark (h : s.Alike s') (c : Compilation) : s.mark c = s'.mark c := by
  simp only [Session.mark, hasSelected, h.selected]

/-- Both open a text at the same place. -/
theorem open? (h : s.Alike s') (source id : String) : s.open? source id = s'.open? source id := by
  simp only [Session.open?, h.element]

/-- Sessions that adopt the same compilation stay alike. -/
theorem adopt (h : s.Alike s') (c : Compilation) : (s.adopt c).Alike (s'.adopt c) := by
  refine ⟨?_, ?_⟩
  · rw [selected_adopt, selected_adopt, h.selected, h.tableNames]
  · rw [tableNames_adopt, tableNames_adopt]

/-- A report replaces the one before. -/
theorem report (h : s.Alike s') (ds : Option (List Diagnostic)) :
    { s with diagnostics := ds } = { s' with diagnostics := ds } := by
  rw [h.selected, h.tableNames]

/-- After compiling nothing tells them apart. -/
theorem compile (h : s.Alike s') (a : Appearance) (source : String) :
    s.compile a source = s'.compile a source := by
  have hsession : (s.compile a source).1 = (s'.compile a source).1 := by
    cases hok : (Compilation.ofSource a source).isOk with
    | true =>
      rw [compile_of_isOk hok, compile_of_isOk hok]
      exact (h.adopt _).report _
    | false =>
      rw [compile_of_not_isOk hok, compile_of_not_isOk hok]
      exact h.report _
  refine Prod.ext hsession ?_
  exact congrArg (·.mark (Compilation.ofSource a source)) hsession

/-- **One operation has the same outcome for both, and leaves them alike.** -/
theorem perform (h : s.Alike s') (op : Operation) :
    (s.perform op).1.Alike (s'.perform op).1 ∧ (s.perform op).2 = (s'.perform op).2 := by
  cases op with
  | compile a source =>
    rw [Session.perform, Session.perform, h.compile a source]
    exact ⟨refl _, rfl⟩
  | adopt c => exact ⟨h.adopt c, rfl⟩
  | select id =>
    have hselected : (s.select id).selected = (s'.select id).selected := by
      simp only [select, h.element]
    exact ⟨⟨hselected, h.tableNames⟩, rfl⟩
  | deselect => exact ⟨⟨rfl, h.tableNames⟩, rfl⟩
  | openAt source id =>
    refine ⟨h, ?_⟩
    simp only [Session.perform, h.open?]
  | showDiagnostic d => exact ⟨h, rfl⟩
  | mark c => exact ⟨h, congrArg Outcome.diagram (h.mark c)⟩

end Alike

variable {s s' : Session}

/-- A failed attempt changes what is reported, and nothing else. -/
theorem alike_compile {a : Appearance} {source : String}
    (h : (Compilation.ofSource a source).isOk = false) : (s.compile a source).1.Alike s := by
  rw [compile_of_not_isOk h]
  exact ⟨rfl, rfl⟩

/-! ## Runs -/

@[simp] theorem follow_cons (s : Session) (step : Step) (steps : List Step) :
    s.follow (step :: steps) = (s.perform step.call).1.follow steps := rfl

/-- A run in two pieces is followed piece by piece. -/
theorem follow_append (s : Session) (steps more : List Step) :
    s.follow (steps ++ more) = (s.follow steps).follow more := by
  simp only [follow, run, List.map_append, List.foldl_append]

/-- Attempts that fail leave a session alike to the one without them, wherever they are put in. -/
theorem Alike.follow (h : s.Alike s') {steps : List Step} (hfails : ∀ step ∈ steps, step.Fails) :
    (s.follow steps).Alike (s'.follow (uninterrupted steps)) := by
  induction steps generalizing s s' with
  | nil => exact h
  | cons step steps ih =>
    obtain ⟨hstep, hsteps⟩ := List.forall_mem_cons.1 hfails
    cases step with
    | operation op => exact ih (h.perform op).1 hsteps
    | attempt a source => exact ih ((alike_compile hstep).trans h) hsteps

/-- What is observed along a run does not depend on the attempts that fail in it. -/
theorem Alike.observed (h : s.Alike s') {steps : List Step} (hfails : ∀ step ∈ steps, step.Fails) :
    s.observed steps = s'.observed (uninterrupted steps) := by
  induction steps generalizing s s' with
  | nil => rfl
  | cons step steps ih =>
    obtain ⟨hstep, hsteps⟩ := List.forall_mem_cons.1 hfails
    cases step with
    | operation op =>
      obtain ⟨hnext, houtcome⟩ := h.perform op
      have hrest := ih hnext hsteps
      rw [uninterrupted, List.filter_cons_of_pos rfl, Session.observed, Session.observed, houtcome,
        hnext.selected, hrest, uninterrupted]
    | attempt a source => exact ih ((alike_compile hstep).trans h) hsteps

/-- Nothing is left out of a run in which nothing was put in. -/
theorem uninterrupted_of_forall {steps : List Step} (h : ∀ step ∈ steps, step.isOperation = true) :
    uninterrupted steps = steps := List.filter_eq_self.2 h

/-- What is current is reported alike. -/
theorem follow_of_isCurrent (s : Session) {steps : List Step} (hcurrent : IsCurrent steps)
    (hfails : ∀ step ∈ steps, step.Fails) : s.follow steps = s.follow (uninterrupted steps) := by
  cases hcurrent with
  | inl hall => rw [uninterrupted_of_forall hall]
  | inr hcompiled =>
    obtain ⟨before, a, source, rest, rfl, hrest⟩ := hcompiled
    have hbefore := (Alike.refl s).follow fun step hstep => hfails step (List.mem_append_left _ hstep)
    have hkept : uninterrupted (before ++ .operation (.compile a source) :: rest) =
        uninterrupted before ++ .operation (.compile a source) :: rest := by
      rw [uninterrupted, List.filter_append, List.filter_cons_of_pos rfl, List.filter_eq_self.2 hrest]
      rfl
    have hcompiled : ((s.follow before).compile a source).1 =
        ((s.follow (uninterrupted before)).compile a source).1 := by
      rw [hbefore.compile a source]
    rw [hkept, follow_append, follow_append, follow_cons, follow_cons]
    exact congrArg (fun session : Session => session.follow rest) hcompiled

/-- **Attempts that fail pass without a trace**: what the operations of a run give back, and the
selections that they leave, are the same with and without them.  So is the session at every point of
the run, but for its report, and its report is the same again once the run itself has compiled. -/
theorem interruptions_pass (s : Session) {steps : List Step} (h : ∀ step ∈ steps, step.Fails) :
    s.observed steps = s.observed (uninterrupted steps) ∧
      ∀ before, before <+: steps →
        (s.follow before).Alike (s.follow (uninterrupted before)) ∧
        (IsCurrent before → s.follow before = s.follow (uninterrupted before)) := by
  refine ⟨(Alike.refl s).observed h, fun before hpoint => ?_⟩
  have hbefore : ∀ step ∈ before, step.Fails := fun step hstep => h step (hpoint.subset hstep)
  exact ⟨(Alike.refl s).follow hbefore, fun hcurrent => follow_of_isCurrent s hcurrent hbefore⟩

/-- A table is selected by its bare name, while the text is twice broken and then whole again. -/
def typing : List Step :=
  [.operation (.compile {} "Table t \x7b\x7d"), .attempt {} "Table t \x7b",
    .operation (.select "t"), .attempt {} "Table \x7b", .operation (.openAt "Table t \x7b\x7d" "t"),
    .operation (.compile {} "Table t \x7b\x7d")]

/-- Two texts that are broken off, before and after the table is selected by its name. -/
theorem interruptions_pass_typing :
    (∀ step ∈ typing, step.Fails) ∧
      observed {} typing = observed {} (uninterrupted typing) ∧
      follow {} typing = follow {} (uninterrupted typing) ∧
      (follow {} typing).selected = some "t" := by
  have hfails : ∀ step ∈ typing, step.Fails := by
    have hunclosed : (Compilation.ofSource {} "Table t \x7b").isOk = false := by decide +kernel
    have hnameless : (Compilation.ofSource {} "Table \x7b").isOk = false := by decide +kernel
    simp [typing, Step.Fails, hunclosed, hnameless]
  obtain ⟨hobserved, hpoints⟩ := interruptions_pass {} hfails
  refine ⟨hfails, hobserved, (hpoints typing List.prefix_rfl).2 (.inr ?_), by decide +kernel⟩
  exact ⟨typing.take 5, {}, "Table t \x7b\x7d", [], rfl, by simp⟩

end SchemaDiagram.Session
