import Mathlib.Data.List.Forall2
import SchemaDiagram.Proofs.Token.Writing

/-!
# SchemaDiagram.Proofs.Token.Printing

Tokens printed with a space between each two are read back, and whatever is read can be printed.

A text between single quotes can be printed in two ways, with a line feed as `\n` or, between triple
quotes, as it is (`Token.Prints`).  For the first half the tokens are read one after the other, as a
space ends each of them (`Lexeme.isReadAs_spaced`); the second is that each token comes from a
piece of the text that spells it (`Lexeme.exists_spells`).
-/

namespace SchemaDiagram

namespace Token

/-! ## Printed tokens -/

/-- A character as it stands between triple quotes. -/
def escapeTripleChar (c : Char) : List Char := if c = '\\' ∨ c = '\'' then ['\\', c] else [c]

/-- A text as it stands between triple quotes. -/
def escapeTriple (cs : List Char) : List Char := cs.flatMap escapeTripleChar

/-- A text between triple quotes. -/
def encloseTriple (text : String) : List Char :=
  '\'' :: '\'' :: '\'' :: escapeTriple text.toList ++ ['\'', '\'', '\'']

/-- The ways to print a token. -/
inductive Prints : Token → List Char → Prop
  | write {t : Token} : t.IsWritable → Prints t t.write
  | triple (text : String) : Prints (.string text) (encloseTriple text)

/-- Between triple quotes an escaped text stands for itself. -/
theorem tripleBody_escapeTriple (cs : List Char) : Quotes.TripleBody (escapeTriple cs) cs := by
  induction cs with
  | nil => exact .nil
  | cons c cs ih =>
    rw [escapeTriple, List.flatMap_cons, escapeTripleChar]
    split
    · exact .escaped ih
    · rename_i hc
      rw [not_or] at hc
      refine .plain hc.1 ?_ ih
      rintro ⟨after, hafter⟩
      exact hc.2 (List.cons.inj hafter).1.symm

/-- Every way to print a token is a way to write it. -/
theorem Prints.spells {t : Token} {cs : List Char} (h : t.Prints cs) : Spells t cs := by
  cases h with
  | write h => exact spells_write h
  | triple text => exact .triple (tripleBody_escapeTriple _)

end Token

/-- What has been read as a token can be written. -/
theorem Spells.isWritable {t : Token} {cs : List Char} (h : Spells t cs) : t.IsWritable := by
  cases h with
  | identifier h | number h | color h => exact h
  | _ => trivial

/-! ## Reading -/

namespace Lexeme

/-- Spelled tokens with a space between each two are read as these tokens. -/
theorem isReadAs_spaced {tokens : List Token} {words : List (List Char)}
    (h : List.Forall₂ Spells tokens words) : IsReadAs ([' '].intercalate words) tokens := by
  induction h with
  | nil => exact isReadAs_nil.2 rfl
  | @cons t word tokens words hword hwords ih =>
    cases hwords with
    | nil => exact List.intercalate_singleton ▸ (isReadAs_of_spells hword).2 rfl
    | @cons u next tokens words hnext hwords =>
      have hend : ∀ c ∈ (' ' :: [' '].intercalate (next :: words)).head?, t.isEndedBy c = true := by
        rintro _ ⟨⟩
        exact Token.isEndedBy_of_isBlank (by decide) t
      rw [List.intercalate_cons_cons, List.append_assoc, List.singleton_append]
      exact (isReadAs_append hword hend).2 ⟨_, rfl, (isReadAs_blank (by decide) _).2 ih⟩

/-- Each token of a text is spelled somewhere in it. -/
theorem exists_spells {p : Position} {cs : List Char} {t : Located}
    (h : t ∈ located p (all cs).1) : ∃ word, word <:+: cs ∧ Spells t.token word := by
  fun_induction all cs generalizing p with
  | case1 | case2 => contradiction
  | case3 c cs l rest hfirst _ ls fault hall ih =>
    have hcs := append_of_first hfirst
    rw [located, List.mem_append, Option.mem_toList, Option.map_eq_some_iff] at h
    rcases h with ⟨token, htoken, rfl⟩ | h
    · exact ⟨l.text, hcs ▸ (List.prefix_append l.text rest).isInfix, spells_of_first hfirst htoken⟩
    · obtain ⟨word, hinfix, hword⟩ := ih (by rw [hall]; exact h)
      exact ⟨word, hcs ▸ hinfix.trans (List.suffix_append l.text rest).isInfix, hword⟩

end Lexeme

/-! ## The theorem -/

/-- **What is printed is read back, and what is read can be printed.**  Any printed tokens, with a
space between each two, are read as just these tokens, without a fault; and every token that is read
of a text, up to a fault or to its end, can be printed. -/
theorem Lexing.of_printed :
    (∀ tokens words, List.Forall₂ Token.Prints tokens words →
      (Lexing.of (String.ofList ([' '].intercalate words))).tokens.map (·.token) = tokens ∧
        (Lexing.of (String.ofList ([' '].intercalate words))).fault = none) ∧
    ∀ source, ∀ t ∈ (Lexing.of source).tokens, t.token.IsWritable := by
  constructor
  · intro tokens words h
    rw [isReadAs_iff, String.toList_ofList]
    exact Lexeme.isReadAs_spaced (h.imp fun _ _ h => h.spells)
  · intro source t ht
    obtain ⟨_, _, hword⟩ := Lexeme.exists_spells ht
    exact hword.isWritable

/-- An empty text before another one, a sign for less before one for greater, and a number that ends
with a point before a name that begins with a digit. -/
theorem Lexing.of_printed_neighbours :
    ((Lexing.of "'' '''\\'\n''' < > 1. 2fa").tokens.map (·.token) =
        [.string "", .string "'\n", .symbol .less, .symbol .greater, .number "1.",
          .identifier "2fa"] ∧
      (Lexing.of "'' '''\\'\n''' < > 1. 2fa").fault = none) ∧
    IsIdentifier "2fa".toList := by
  have hnumber : IsNumber "1.".toList :=
    ⟨['1'], List.cons_ne_nil _ _, List.forall_mem_singleton.2 rfl,
      .inr ⟨[], rfl, List.forall_mem_nil _⟩⟩
  have hname : IsIdentifier "2fa".toList :=
    ⟨['2'], 'f', ['a'], rfl, List.forall_mem_singleton.2 rfl, rfl, List.forall_mem_singleton.2 rfl⟩
  have hprints : List.Forall₂ Token.Prints
      [.string "", .string "'\n", .symbol .less, .symbol .greater, .number "1.", .identifier "2fa"]
      [['\'', '\''], Token.encloseTriple "'\n", ['<'], ['>'], "1.".toList, "2fa".toList] :=
    .cons (.write trivial) (.cons (.triple _) (.cons (.write trivial) (.cons (.write trivial)
      (.cons (.write hnumber) (.cons (.write hname) .nil)))))
  have htext : "'' '''\\'\n''' < > 1. 2fa" = String.ofList ([' '].intercalate
      [['\'', '\''], Token.encloseTriple "'\n", ['<'], ['>'], "1.".toList, "2fa".toList]) := by
    decide +kernel
  rw [htext]
  exact ⟨Lexing.of_printed.1 _ _ hprints,
    Lexing.of_printed.2 "2fa" ⟨.identifier "2fa", ⟨1, 1⟩⟩ (by decide +kernel)⟩

end SchemaDiagram
