import SchemaDiagram.Proofs.Grammar.Locality
import SchemaDiagram.Proofs.Grammar.Viable

/-!
# SchemaDiagram.Proofs.Document.Mistake

A syntax error is reported at the first token that cannot stand where it does.

1. What follows this token has no part in the error (`Grammar.local_declarations`).
2. The tokens before it can be completed to a document (`Grammar.viable_declarations`).
-/

namespace SchemaDiagram.Document

open Grammar SchemaDiagram.Parser

/-- The error is about the token at an index, or about the end of the tokens behind the last of
them, and about nothing that follows. -/
structure FirstMistake (tokens : List Located) (finish : Position) (e : SyntaxError) (k : Nat) :
    Prop where
  /-- The error carries the position at the index, and at no other. -/
  location : ∀ j, (tokens.map (·.position) ++ [finish])[j]? = some e.location ↔ j = k
  /-- Errors of single tokens have been reported before. -/
  not_lexical : ∀ fault p, e ≠ .lexical fault p
  /-- An unexpected token is the one at the index, and it stays so whatever follows. -/
  of_unexpected : ∀ found expected p, e = .unexpected found expected p →
    (∃ t, tokens[k]? = some t ∧ t.token = found) ∧
      ∀ others finish', others.take (k + 1) = tokens.take (k + 1) →
        Declarations.ofTokens others finish' = .error e
  /-- An unexpected end is the end. -/
  of_unexpectedEnd : ∀ expected p, e = .unexpectedEnd expected p → k = tokens.length
  /-- The tokens before are the beginning of a document. -/
  completion : ∃ added : List Token, ∀ more finish', more.map (·.token) = added →
    ∃ d, Declarations.ofTokens (tokens.take k ++ more) finish' = .ok d

/-- The error of tokens is the mismatch at which their declarations end. -/
theorem ofTokens_eq_error {tokens : List Located} {finish : Position} {e : SyntaxError} :
    Declarations.ofTokens tokens finish = .error e ↔
      ∃ m, declarations tokens = .error m ∧ e = .ofMismatch finish m := by
  unfold Declarations.ofTokens
  cases declarations tokens with
  | error m => simp [eq_comm]
  | ok r => simp

/-- In a list without repetitions an element stands at one index only. -/
theorem getElem?_eq_some_iff_of_nodup {ps : List Position} {k : Nat} {p : Position}
    (hdistinct : ps.Nodup) (hk : ps[k]? = some p) (j : Nat) : ps[j]? = some p ↔ j = k := by
  obtain ⟨hlt, _⟩ := List.getElem?_eq_some_iff.1 hk
  rw [← hk, eq_comm, List.getElem?_inj hlt hdistinct, eq_comm]

/-- The tokens before the ones at which the declarations fail are the beginning of a document. -/
theorem exists_completion {taken rest : List Located} {expected : Expected}
    (h : declarations (taken ++ rest) = .error ⟨expected, rest⟩) :
    ∃ added : List Token, ∀ more finish, more.map (·.token) = added →
      ∃ d, Declarations.ofTokens (taken ++ more) finish = .ok d := by
  obtain ⟨taken', heq, added, hadded⟩ := viable_declarations _ h
  rw [List.append_cancel_right_eq] at heq
  subst heq
  refine ⟨added, fun more finish hm => ?_⟩
  have hdocument := hadded more [] hm
  rw [List.append_nil] at hdocument
  obtain ⟨d, hd⟩ := takes_declarations hdocument
  refine ⟨d, ?_⟩
  rw [Declarations.ofTokens, hd]

/-- An error is about the first mistake among the tokens. -/
theorem exists_firstMistake {tokens : List Located} {finish : Position} {e : SyntaxError}
    (hdistinct : (tokens.map (·.position) ++ [finish]).Nodup)
    (herr : Declarations.ofTokens tokens finish = .error e) :
    ∃ k, FirstMistake tokens finish e k := by
  obtain ⟨⟨expected, rest⟩, hm, rfl⟩ := ofTokens_eq_error.1 herr
  obtain ⟨taken, rfl, hlocal⟩ := (local_declarations tokens).error hm
  have hcompletion := exists_completion hm
  refine ⟨taken.length, ?_⟩
  cases rest with
  | nil =>
    refine ⟨getElem?_eq_some_iff_of_nodup hdistinct ?_, ?_, ?_, ?_, ?_⟩
    · simp [SyntaxError.ofMismatch, SyntaxError.location]
    · exact fun fault p he => by contradiction
    · exact fun found expected p he => by contradiction
    · exact fun expected p _ => by rw [List.append_nil]
    · simpa using hcompletion
  | cons t after =>
    refine ⟨getElem?_eq_some_iff_of_nodup hdistinct ?_, ?_, ?_, ?_, ?_⟩
    · simp [SyntaxError.ofMismatch, SyntaxError.location]
    · exact fun fault p he => by contradiction
    · rintro found expected' p ⟨⟩
      refine ⟨⟨t, by simp, rfl⟩, fun others finish' hothers => ?_⟩
      have hfront : (taken ++ t :: after).take (taken.length + 1) = taken ++ [t] := by
        rw [List.take_length_add_append, List.take_one]
        rfl
      rw [hfront] at hothers
      obtain ⟨after', rfl⟩ : ∃ after', others = taken ++ t :: after' :=
        ⟨others.drop (taken.length + 1), by
          rw [← List.singleton_append, ← List.append_assoc, ← hothers, List.take_append_drop]⟩
      exact ofTokens_eq_error.2 ⟨_, hlocal (t :: after') rfl, rfl⟩
    · exact fun expected p he => by contradiction
    · simpa using hcompletion

/-- The brace of a table without a name is the first mistake in it. -/
theorem exists_firstMistake_of_nameless_table :
    ∃ k, FirstMistake [⟨.identifier "table", ⟨1, 1⟩⟩, ⟨.symbol .openBrace, ⟨1, 7⟩⟩,
      ⟨.symbol .closeBrace, ⟨1, 8⟩⟩] ⟨1, 9⟩
      (.unexpected (.symbol .openBrace) .tableName ⟨1, 7⟩) k := by
  refine exists_firstMistake (by decide) (ofTokens_eq_error.2 ⟨⟨.tableName,
    [⟨.symbol .openBrace, ⟨1, 7⟩⟩, ⟨.symbol .closeBrace, ⟨1, 8⟩⟩]⟩, ?_, rfl⟩)
  refine bind_of_error (repeatUntil_of_error rfl ?_)
  exact (accept_then_of_true (by decide)).trans (bind_of_error (bind_of_error rfl))

end SchemaDiagram.Document
