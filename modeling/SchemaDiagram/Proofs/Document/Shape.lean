import SchemaDiagram.Document.Source
import SchemaDiagram.Proofs.Document.Mistake
import SchemaDiagram.Proofs.Grammar.Uniform
import SchemaDiagram.Proofs.Token.Order

/-!
# SchemaDiagram.Proofs.Document.Shape

Blanks, comments and the columns of tokens mean nothing in a document.

Texts of the same shape, that is, with the same tokens of which the same ones share a line with
the one before, declare the same or are at fault at the same token (`ofSource_of_sameShape`).
-/

namespace SchemaDiagram

/-- The position of the error is that of the token at an index, or of the end if the index is behind
the last token, and of no other. -/
def SyntaxError.IsAtToken (l : Lexing) (e : SyntaxError) (k : Nat) : Prop :=
  ∀ j, (l.tokens.map (·.position) ++ [l.finish])[j]? = some e.location ↔ j = k

namespace Document

open Grammar SchemaDiagram.Parser

/-- A text read without a fault holds the declarations among its tokens. -/
theorem ofSource_of_ok {source : String} {d : Declarations} {rest : List Located}
    (hfault : (Lexing.of source).fault = none)
    (h : declarations (Lexing.of source).tokens = .ok (d, rest)) :
    ofSource source = .ok (ofDeclarations d) := by
  rw [ofSource]
  simp only [hfault]
  rw [Declarations.ofTokens, h]
  rfl

/-- A text read without a fault is at fault where its tokens are no declarations. -/
theorem ofSource_of_error {source : String} {m : Mismatch}
    (hfault : (Lexing.of source).fault = none)
    (h : declarations (Lexing.of source).tokens = .error m) :
    ofSource source = .error (.ofMismatch (Lexing.of source).finish m) := by
  rw [ofSource]
  simp only [hfault]
  rw [Declarations.ofTokens, h]
  rfl

/-- Errors at the same token have the same cause and message, wherever the token stands. -/
theorem ofMismatch_of_tokenwise {R : List Located → List Located → Prop} [Tokenwise R]
    {rest rest' : List Located} (h : R rest rest') (expected : Expected) (p p' : Position) :
    (SyntaxError.ofMismatch p' ⟨expected, rest'⟩).cause =
        (SyntaxError.ofMismatch p ⟨expected, rest⟩).cause ∧
      (SyntaxError.ofMismatch p' ⟨expected, rest'⟩).message =
        (SyntaxError.ofMismatch p ⟨expected, rest⟩).message := by
  unfold SyntaxError.message
  cases rest with
  | nil =>
    cases Tokenwise.nil h
    exact ⟨rfl, rfl⟩
  | cons t rest =>
    obtain ⟨t', rest', rfl, ht, -⟩ := Tokenwise.cons h
    refine ⟨rfl, ?_⟩
    dsimp only [SyntaxError.ofMismatch]
    rw [ht]

/-- An error is at the first token that is left of the text. -/
theorem isAtToken_ofMismatch {source : String} {expected : Expected} {rest : List Located}
    (h : declarations (Lexing.of source).tokens = .error ⟨expected, rest⟩) :
    (SyntaxError.ofMismatch (Lexing.of source).finish ⟨expected, rest⟩).IsAtToken (Lexing.of source)
      ((Lexing.of source).tokens.length - rest.length) := by
  obtain ⟨taken, htokens, -⟩ := (local_declarations _).error h
  have hnodup := Lexing.nodup_positions source
  have hat : ((Lexing.of source).tokens.map (·.position) ++ [(Lexing.of source).finish])[taken.length]?
      = some (SyntaxError.ofMismatch (Lexing.of source).finish ⟨expected, rest⟩).location := by
    rw [htokens]
    cases rest <;> simp [SyntaxError.ofMismatch, SyntaxError.location]
  have hlength : (Lexing.of source).tokens.length - rest.length = taken.length := by
    rw [htokens, List.length_append, Nat.add_sub_cancel]
  rw [hlength]
  exact getElem?_eq_some_iff_of_nodup hnodup hat

/-- **Only tokens and line breaks between them matter**: texts of the same shape hold the same
document, or their errors have the same number and the same message and are at the same token. -/
theorem ofSource_of_sameShape {a b : String} (ha : (Lexing.of a).fault = none)
    (hb : (Lexing.of b).fault = none)
    (h : SameShape (Lexing.of a).tokens (Lexing.of b).tokens) :
    (∃ d, ofSource a = .ok d ∧ ofSource b = .ok d) ∨
      ∃ e e' k, ofSource a = .error e ∧ ofSource b = .error e' ∧
        e'.diagnostic.code = e.diagnostic.code ∧ e'.diagnostic.message = e.diagnostic.message ∧
        e.IsAtToken (Lexing.of a) k ∧ e'.IsAtToken (Lexing.of b) k := by
  have hagree := uniform_declarations h
  generalize hra : declarations (Lexing.of a).tokens = ra at hagree
  generalize hrb : declarations (Lexing.of b).tokens = rb at hagree
  cases hagree with
  | ok d hrest => exact .inl ⟨_, ofSource_of_ok ha hra, ofSource_of_ok hb hrb⟩
  | error expected hrest =>
    obtain ⟨hcause, hmessage⟩ := ofMismatch_of_tokenwise hrest expected
      (Lexing.of a).finish (Lexing.of b).finish
    have hat := isAtToken_ofMismatch hrb
    rw [h.length_eq, hrest.length_eq] at hat
    exact .inr ⟨_, _, _, ofSource_of_error ha hra, ofSource_of_error hb hrb,
      congrArg Diagnostic.Cause.number hcause, hmessage, isAtToken_ofMismatch hra, hat⟩

/-- A comment, a space more and an empty line leave a table as it is. -/
theorem ofSource_of_sameShape_around_comment :
    (Lexing.of "Table t \x7b\n  a int\n\x7d").fault = none ∧
      (Lexing.of "Table /* t */  t \x7b\n\na int // a\n\x7d").fault = none ∧
      SameShape (Lexing.of "Table t \x7b\n  a int\n\x7d").tokens
        (Lexing.of "Table /* t */  t \x7b\n\na int // a\n\x7d").tokens ∧
      ((∃ d, ofSource "Table t \x7b\n  a int\n\x7d" = .ok d ∧
          ofSource "Table /* t */  t \x7b\n\na int // a\n\x7d" = .ok d) ∨
        ∃ e e' k, ofSource "Table t \x7b\n  a int\n\x7d" = .error e ∧
          ofSource "Table /* t */  t \x7b\n\na int // a\n\x7d" = .error e' ∧
          e'.diagnostic.code = e.diagnostic.code ∧ e'.diagnostic.message = e.diagnostic.message ∧
          e.IsAtToken (Lexing.of "Table t \x7b\n  a int\n\x7d") k ∧
          e'.IsAtToken (Lexing.of "Table /* t */  t \x7b\n\na int // a\n\x7d") k) :=
  have ha : (Lexing.of "Table t \x7b\n  a int\n\x7d").fault = none := by decide +kernel
  have hb : (Lexing.of "Table /* t */  t \x7b\n\na int // a\n\x7d").fault = none := by decide +kernel
  have h : SameShape (Lexing.of "Table t \x7b\n  a int\n\x7d").tokens
      (Lexing.of "Table /* t */  t \x7b\n\na int // a\n\x7d").tokens :=
    ⟨by decide +kernel, by decide +kernel⟩
  ⟨ha, hb, h, ofSource_of_sameShape ha hb h⟩

end Document

end SchemaDiagram
