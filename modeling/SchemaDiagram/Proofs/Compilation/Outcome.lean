import SchemaDiagram.Compilation
import SchemaDiagram.Proofs.Grammar.Locality
import SchemaDiagram.Proofs.Text.Lines
import SchemaDiagram.Proofs.Token.Fault

/-!
# SchemaDiagram.Proofs.Compilation.Outcome

What a compilation brings: the diagram of the schema, or one diagnostic.

The diagnostic points into the text.  Before the end of it, the lines of the text have a character
at its location, and the text from this character on begins with what the error is about
(`SyntaxError.Begins`): a character or a lexeme at fault, or the lexeme of the token that was not
expected.
-/

namespace SchemaDiagram

/-! ## Places of errors -/

/-- What spells a token does not begin with a blank. -/
theorem exists_cons_of_spells {t : Token} {cs : List Char} (h : Spells t cs) :
    ∃ c ds, cs = c :: ds ∧ Text.isBlank c = false := by
  have hend : ∀ c ∈ ([] : List Char).head?, t.isEndedBy c = true := by simp
  obtain ⟨c, ds, rfl, hfirst⟩ := Lexeme.first_of_spells h hend
  refine ⟨c, ds, rfl, ?_⟩
  cases hc : Text.isBlank c with
  | false => rfl
  | true =>
    rw [Lexeme.first_of_isBlank hc] at hfirst
    have htoken := congrArg (fun r => r.1.token) (Except.ok.inj hfirst)
    contradiction

namespace SyntaxError

/-- A text begins with what an error is about; nothing is left of it if its end was not expected. -/
def Begins : SyntaxError → List Char → Prop
  | lexical fault _, cs => fault.Begins cs
  | unexpected found _ _, cs => ∃ lexeme, Spells found lexeme ∧ lexeme <+: cs
  | unexpectedEnd _ _, cs => cs = []

/-- Only an end that was not expected has the number 3002. -/
theorem eq_unexpectedEnd {e : SyntaxError} (h : e.diagnostic.code = 3002) :
    ∃ expected p, e = .unexpectedEnd expected p := by
  have hcause : e.cause = .unexpectedEnd := by
    change e.cause.number = 3002 at h
    cases hc : e.cause with
    | unexpectedEnd => rfl
    | _ => rw [hc] at h; contradiction
  cases e with
  | lexical fault p => cases fault <;> contradiction
  | unexpected found expected p => contradiction
  | unexpectedEnd expected p => exact ⟨expected, p, rfl⟩

/-- Where nothing is left, the end was not expected. -/
theorem Begins.of_nil {e : SyntaxError} (h : e.Begins []) :
    ∃ expected p, e = .unexpectedEnd expected p := by
  cases e with
  | lexical fault p =>
    cases fault with
    | unexpectedCharacter c => simp [Begins, Fault.Begins] at h
    | unterminatedString => simp [Begins, Fault.Begins] at h
    | unterminatedComment => simp [Begins, Fault.Begins] at h
  | unexpected found expected p =>
    obtain ⟨lexeme, hspells, hprefix⟩ := h
    obtain ⟨c, ds, rfl, _⟩ := exists_cons_of_spells hspells
    simp at hprefix
  | unexpectedEnd expected p => exact ⟨expected, p, rfl⟩

end SyntaxError

/-- A place in a text: what stands before it, and what the text goes on with. -/
structure IsAt (source : String) (p : Position) (before rest : List Char) : Prop where
  text : source.toList = before ++ rest
  position : p = .behind before

/-- An error is about what stands at its location. -/
theorem exists_isAt_of_ofSource {source : String} {e : SyntaxError}
    (h : Document.ofSource source = .error e) :
    ∃ before rest, IsAt source e.location before rest ∧ e.Begins rest ∧
      ∀ c ∈ rest.head?, Text.isBlank c = false := by
  unfold Document.ofSource at h
  dsimp only at h
  split at h
  · rename_i fault hfault
    cases h
    obtain ⟨before, c, after, htext, hfinish, hblank, hbegins⟩ := Lexing.exists_fault hfault
    exact ⟨before, c :: after, ⟨htext, hfinish⟩, hbegins, by simpa using hblank⟩
  · rename_i hfault
    obtain ⟨tiles, last, htokens, hfinish, htiling⟩ :=
      Lexeme.exists_tiling [] source.toList hfault
    cases hd : Grammar.declarations (Lexing.of source).tokens with
    | ok r => simp [Document.Declarations.ofTokens, hd, Except.map] at h
    | error m =>
      obtain ⟨expected, rest⟩ := m
      have he : e = .ofMismatch (Lexing.of source).finish ⟨expected, rest⟩ := by
        simpa [Document.Declarations.ofTokens, hd, Except.map, eq_comm] using h
      obtain ⟨taken, htaken, _⟩ := (Grammar.local_declarations _).error hd
      subst he
      cases rest with
      | nil => exact ⟨source.toList, [], ⟨by simp, hfinish⟩, rfl, by simp⟩
      | cons t rest =>
        have hmem : t ∈ tiles.map (·.token) := by
          have ht : t ∈ (Lexing.of source).tokens := by
            rw [htaken]
            exact List.mem_append_right _ List.mem_cons_self
          rwa [htokens]
        obtain ⟨tile, htile, rfl⟩ := List.mem_map.1 hmem
        obtain ⟨before, after, htext, hposition, hspells⟩ := htiling.exists_lexeme_of_mem htile
        refine ⟨before, tile.lexeme ++ after, ⟨htext, hposition⟩,
          ⟨tile.lexeme, hspells, List.prefix_append _ _⟩, ?_⟩
        obtain ⟨c, ds, hcons, hblank⟩ := exists_cons_of_spells hspells
        simpa [hcons] using hblank

/-! ## Outcomes -/

namespace Compilation

/-- A blank text has no pieces but a gap. -/
theorem ofSource_of_isAllBlank {source : String} (h : Text.isAllBlank source.toList = true) :
    Schema.ofSource source = .ok {} := by
  have hblank : ∀ c ∈ source.toList, Text.isBlank c = true := fun c hc =>
    List.all_eq_true.1 h c hc
  have hreads : Lexeme.Reads .start (source.toList ++ []) [] :=
    Lexeme.reads_blanks hblank (Lexeme.reads_nil _)
  rw [List.append_nil] at hreads
  obtain ⟨htokens, hfault⟩ := Lexing.of_of_reads hreads
  have hdeclarations : Grammar.declarations [] = .ok ({}, []) := by
    rw [Grammar.declarations, SchemaDiagram.Parser.bind_of_ok
      (SchemaDiagram.Parser.repeatUntil_of_stop rfl)]
    rfl
  rw [Schema.ofSource, Document.ofSource]
  simp only [hfault, htokens, Document.Declarations.ofTokens, hdeclarations]
  rfl

/-- A blank text has the diagram of its schema, too. -/
theorem ofSource_of_ok {source : String} {s : Schema} (a : Appearance)
    (h : Schema.ofSource source = .ok s) : ofSource a source = ofSchema a s := by
  unfold ofSource
  split
  · rename_i hblank
    rw [ofSource_of_isAllBlank hblank] at h
    cases h
    rfl
  · rw [h]

/-- A text at fault has its one diagnostic and no diagram. -/
theorem ofSource_of_error {source : String} {e : SyntaxError} (a : Appearance)
    (h : Schema.ofSource source = .error e) :
    ofSource a source = { diagnostics := [e.diagnostic] } := by
  unfold ofSource
  split
  · rename_i hblank
    rw [ofSource_of_isAllBlank hblank] at h
    contradiction
  · rw [h]
    rfl

/-- **Every text has one of two outcomes.**  Either it declares a schema, and the compilation is the
diagram of it without a diagnostic.  Or it is at fault, and the compilation is one diagnostic of
severity `error`: at the end of the text, or where the lines of the text have the first character
of what is at fault. -/
theorem ofSource_outcome (a : Appearance) (source : String) :
    (∃ s, Schema.ofSource source = .ok s ∧ (ofSource a source).diagnostics = [] ∧
      (ofSource a source).nodes = (ofSchema a s).nodes ∧
      (ofSource a source).edges = (ofSchema a s).edges) ∨
    ∃ e d, Schema.ofSource source = .error e ∧
      (ofSource a source).nodes = [] ∧ (ofSource a source).edges = [] ∧
      (ofSource a source).diagnostics = [d] ∧ d = e.diagnostic ∧ d.severity = .error ∧
      (d.code = 3002 → d.location = .behind source.toList) ∧
      (d.code ≠ 3002 → ∃ before c after row,
        IsAt source d.location before (c :: after) ∧ e.Begins (c :: after) ∧
        (Text.lines source.toList)[d.location.line - 1]? = some row ∧
        row[d.location.column - 1]? = some c) := by
  cases hs : Schema.ofSource source with
  | ok s =>
    rw [ofSource_of_ok a hs]
    exact .inl ⟨s, rfl, rfl, rfl, rfl⟩
  | error e =>
    have he : Document.ofSource source = .error e := by
      cases hd : Document.ofSource source with
      | ok d => simp [Schema.ofSource, hd, Except.map] at hs
      | error e' => simpa [Schema.ofSource, hd, Except.map] using hs
    obtain ⟨before, rest, hat, hbegins, hblank⟩ := exists_isAt_of_ofSource he
    rw [ofSource_of_error a hs]
    refine .inr ⟨e, e.diagnostic, rfl, rfl, rfl, rfl, rfl, rfl, fun hcode => ?_, fun hcode => ?_⟩
    · obtain ⟨expected, p, rfl⟩ := SyntaxError.eq_unexpectedEnd hcode
      cases hbegins
      rw [hat.text, List.append_nil]
      exact hat.position
    · cases rest with
      | nil =>
        -- nothing is left only behind the end of the text
        obtain ⟨expected, p, rfl⟩ : ∃ expected p, e = .unexpectedEnd expected p := hbegins.of_nil
        exact absurd rfl hcode
      | cons c after =>
        have hc : Text.isBlank c = false := hblank c rfl
        obtain ⟨row, hrow, hchar⟩ := Text.exists_line_at before after
          (c := c) (by rintro rfl; contradiction) (by rintro rfl; contradiction)
        rw [← hat.text, ← hat.position] at hrow
        rw [← hat.position] at hchar
        exact ⟨before, c, after, row, hat, hbegins, hrow, hchar⟩

end Compilation

end SchemaDiagram
