import Mathlib.Data.List.Forall2
import SchemaDiagram.Proofs.Locator.Block
import SchemaDiagram.Proofs.Token.Writing

/-!
# SchemaDiagram.Proofs.Token.Lines

Tokens read off the lines of a text.

Where the lines of a text are known, each of them tokens with single spaces between them
(`IsLineOf`), the tokens of the text are known (`exists_reads_of_lines`): it does not matter how the
lines end, with a carriage return or without, and whether the last one ends.
-/

namespace SchemaDiagram

open Lexeme (Reads reads_nil reads_token reads_blank reads_blanks)
open Text (isBlank lines withoutReturn)

/-! ## One line -/

/-- Tokens with a space between each two. -/
def Token.join : List Token → List Char
  | [] => []
  | [t] => t.write
  | t :: next :: line => t.write ++ ' ' :: join (next :: line)

/-- A line of text is that of some tokens, behind blanks. -/
structure IsLineOf (line : List Token) (row : List Char) : Prop where
  text : ∃ indent, row = indent ++ Token.join line ∧ ∀ c ∈ indent, isBlank c = true ∧ c ≠ '\n'
  isWritable : ∀ t ∈ line, t.IsWritable

/-- Tokens on a line have no line feed in them: that of a string is escaped. -/
theorem newline_not_mem_join {line : List Token} (h : ∀ t ∈ line, t.IsWritable) :
    '\n' ∉ Token.join line := by
  fun_induction Token.join line with
  | case1 => exact List.not_mem_nil
  | case2 t => exact Token.not_mem_write (h t List.mem_cons_self)
  | case3 t next line ih =>
    have ht := Token.not_mem_write (h t List.mem_cons_self)
    have hline := ih fun u hu => h u (List.mem_cons_of_mem t hu)
    simp [ht, hline]

/-- A line of tokens is one line. -/
theorem IsLineOf.not_mem {line : List Token} {row : List Char} (h : IsLineOf line row) :
    '\n' ∉ row := by
  obtain ⟨indent, rfl, hindent⟩ := h.text
  rw [List.mem_append, not_or]
  exact ⟨fun hmem => (hindent _ hmem).2 rfl, newline_not_mem_join h.isWritable⟩

/-- Tokens with spaces between them are read as such in front of a blank. -/
theorem exists_reads_join {line : List Token} (h : ∀ t ∈ line, t.IsWritable) (p : Position)
    {cs : List Char} {rest : List Located} (hcs : ∀ c ∈ cs.head?, isBlank c = true)
    (hr : Reads (p.after (Token.join line)) cs rest) :
    ∃ ts, Reads p (Token.join line ++ cs) ts ∧ Row p.line line ts rest := by
  fun_induction Token.join line generalizing p with
  | case1 => exact ⟨rest, hr, row_nil.2 rfl⟩
  | case2 t =>
    have hend : ∀ c ∈ cs.head?, t.isEndedBy c = true := fun c hc =>
      Token.isEndedBy_of_isBlank (hcs c hc) t
    refine ⟨_, reads_token (Token.spells_write (h t List.mem_cons_self)) hend hr, ?_⟩
    exact row_cons.2 ⟨p, rest, rfl, rfl, row_nil.2 rfl⟩
  | case3 t next line ih =>
    have ht := h t List.mem_cons_self
    rw [Position.after_append, Position.after_cons] at hr
    obtain ⟨ts, hreads, hrow⟩ := ih (fun u hu => h u (List.mem_cons_of_mem t hu)) _ hr
    have hline : ((p.after t.write).next ' ').line = p.line :=
      line_after (Token.not_mem_write ht) p
    rw [hline] at hrow
    have hend : ∀ c ∈ (' ' :: (Token.join (next :: line) ++ cs)).head?, t.isEndedBy c = true := by
      rintro _ ⟨⟩
      exact Token.isEndedBy_of_isBlank (by decide) t
    refine ⟨⟨t, p⟩ :: ts, ?_, row_cons.2 ⟨p, ts, rfl, rfl, hrow⟩⟩
    rw [List.append_assoc, List.cons_append]
    exact reads_token (Token.spells_write ht) hend (reads_blank (by decide) hreads)

/-- A line is read as its tokens in front of a blank. -/
theorem IsLineOf.exists_reads {line : List Token} {row cs : List Char} {rest : List Located}
    (h : IsLineOf line row) (n : Nat) (hcs : ∀ c ∈ cs.head?, isBlank c = true)
    (hr : Reads (Position.after ⟨n, 1⟩ row) cs rest) :
    ∃ ts, Reads ⟨n, 1⟩ (row ++ cs) ts ∧ Row n line ts rest := by
  obtain ⟨indent, rfl, hindent⟩ := h.text
  rw [Position.after_append] at hr
  obtain ⟨ts, hreads, hrow⟩ := exists_reads_join h.isWritable _ hcs hr
  rw [line_after fun hmem => (hindent _ hmem).2 rfl] at hrow
  refine ⟨ts, ?_, hrow⟩
  rw [List.append_assoc]
  exact reads_blanks (fun c hc => (hindent c hc).1) hreads

/-! ## All lines -/

/-- A line that ends is read in front of the lines below it. -/
theorem IsLineOf.exists_reads_line {line : List Token} {first cs : List Char}
    {rest : List Located} (h : IsLineOf line (withoutReturn first)) (n : Nat)
    (hr : Reads ⟨n + 1, 1⟩ cs rest) :
    ∃ ts, Reads ⟨n, 1⟩ (first ++ '\n' :: cs) ts ∧ Row n line ts rest := by
  have hline : (Position.after ⟨n, 1⟩ (withoutReturn first)).line = n := line_after h.not_mem _
  have hbehind {p : Position} (hp : p.line = n) : Reads p ('\n' :: cs) rest := by
    refine reads_blank (by decide) ?_
    show Reads ⟨p.line + 1, 1⟩ cs rest
    rwa [hp]
  rcases Locator.isRow_withoutReturn first with heq | heq
  · rw [heq] at h hline
    refine h.exists_reads n ?_ (hbehind hline)
    rintro _ ⟨⟩
    decide
  · rw [← heq, List.append_assoc, List.singleton_append]
    refine h.exists_reads n ?_ (reads_blank (by decide) (hbehind hline))
    rintro _ ⟨⟩
    decide

/-- A text whose lines are those of some tokens is read as these. -/
theorem exists_reads_of_lines {rows : List (List Char)} {all : List (List Token)}
    (h : List.Forall₂ IsLineOf all rows) (n : Nat) {cs : List Char} (hcs : lines cs = rows) :
    ∃ ts, Reads ⟨n, 1⟩ cs ts ∧ Rows n all ts [] := by
  induction h generalizing n cs with
  | nil =>
    have hnil : cs = [] := by
      by_contra hne
      obtain ⟨row, rest, hlines, _⟩ := Locator.exists_lines_eq_cons hne
      rw [hcs] at hlines
      contradiction
    exact ⟨[], hnil ▸ reads_nil _, rfl⟩
  | @cons line row all rows hrow hrows ih =>
    obtain ⟨p, l, rfl, hp, hl⟩ := Text.exists_wholeLines cs
    cases hp with
    | nil =>
      -- the last line, which does not end
      have hne : l ≠ [] := by
        rintro rfl
        contradiction
      rw [List.nil_append, Text.lines_of_not_mem hl hne] at hcs
      cases hcs
      cases hrows
      obtain ⟨ts, hreads, hts⟩ := hrow.exists_reads n (by simp) (reads_nil _)
      rw [List.append_nil] at hreads
      exact ⟨ts, hreads, rows_singleton.2 hts⟩
    | @cons first p hfirst hp =>
      rw [List.append_assoc, List.cons_append, Text.lines_line hfirst, List.cons.injEq] at hcs
      obtain ⟨rfl, hbelow⟩ := hcs
      obtain ⟨rest, hrest, hall⟩ := ih (n + 1) hbelow
      obtain ⟨ts, hreads, hts⟩ := hrow.exists_reads_line n hrest
      rw [List.append_assoc, List.cons_append]
      exact ⟨ts, hreads, rest, hts, hall⟩

end SchemaDiagram
