import SchemaDiagram.Proofs.Token.Justified
import SchemaDiagram.Proofs.Token.Reading

/-!
# SchemaDiagram.Proofs.Token.QuoteStyle

One body between single quotes and between triple quotes.

A body without quotes and line feeds of its own, in which every backslash goes with a character, is
a body of both kinds (`body_of_whole`, `tripleBody_of_whole`), so that both spellings are read as
one string.  They part ways behind a backslash only:

| written | between `'`     | between `'''` |
|---------|-----------------|---------------|
| `\n`    | line feed       | `n`           |
| `\t`    | tab             | `t`           |
| `\r`    | carriage return | `r`           |
| `\c`    | `c`             | `c`           |

so the strings are equal exactly if none of the three letters is escaped (`unescape_eq_iff`).
-/

namespace SchemaDiagram

namespace Token.Quotes

/-- The letters that stand for another character behind a backslash. -/
def valued : List Char := ['n', 't', 'r']

/-- A character behind a backslash is itself, except for three letters. -/
theorem escapeValue_eq_iff {c : Char} : escapeValue c = c ↔ c ∉ valued := by
  constructor
  · intro h hc
    simp only [valued, List.mem_cons, List.not_mem_nil, or_false] at hc
    rcases hc with rfl | rfl | rfl <;> exact absurd h (by decide)
  · intro hc
    unfold escapeValue
    split
    · exact absurd (by decide) hc
    · exact absurd (by decide) hc
    · exact absurd (by decide) hc
    · rfl

/-! ## Escaped characters of a body -/

/-- Somewhere in a body the character goes with a backslash. -/
def Escapes (c : Char) (body : List Char) : Prop := ∃ before, Stands before ['\\', c] body

variable {c d : Char} {cs body : List Char}

/-- Nothing is escaped in an empty body. -/
theorem not_escapes_nil : ¬ Escapes c [] := by
  rintro ⟨before, hs⟩
  exact not_stands_nil (List.cons_ne_nil _ _) hs

/-- A character on its own escapes nothing. -/
theorem escapes_plain (hd : d ≠ '\\') : Escapes c (d :: cs) ↔ Escapes c cs := by
  constructor
  · rintro ⟨before, hs⟩
    rcases stands_cons hs fun _ _ h => absurd h hd with ⟨-, hfront⟩ | ⟨before', -, -, hs'⟩
    · exact absurd (List.cons_prefix_cons.1 hfront).1.symm hd
    · exact ⟨before', hs'⟩
  · rintro ⟨before, hwhole, hfront⟩
    exact ⟨d :: before, .plain hd hwhole, List.cons_prefix_cons.2 ⟨rfl, hfront⟩⟩

/-- A backslash escapes the character that goes with it and no other. -/
theorem escapes_escaped : Escapes c ('\\' :: d :: cs) ↔ c = d ∨ Escapes c cs := by
  constructor
  · rintro ⟨before, hwhole, hfront⟩
    cases hwhole with
    | nil => exact .inl (List.cons_prefix_cons.1 (List.cons_prefix_cons.1 hfront).2).1
    | plain hplain => exact absurd (List.cons_prefix_cons.1 hfront).1 hplain
    | @escaped e before hwhole =>
      have hbehind := (List.cons_prefix_cons.1 (List.cons_prefix_cons.1 hfront).2).2
      exact .inr ⟨before, hwhole, hbehind⟩
  · rintro (rfl | ⟨before, hwhole, hfront⟩)
    · exact ⟨[], .nil, cs, rfl⟩
    · refine ⟨'\\' :: d :: before, .escaped hwhole, ?_⟩
      exact List.cons_prefix_cons.2 ⟨rfl, List.cons_prefix_cons.2 ⟨rfl, hfront⟩⟩

/-! ## Both kinds of body -/

/-- Without quotes and line feeds a body can stand between single quotes. -/
theorem body_of_whole (h : Whole body) (hquote : '\'' ∉ body) (hline : '\n' ∉ body) :
    Body '\'' body (unescape body) := by
  induction h with
  | nil => exact .nil
  | @plain c cs hc _ ih =>
    simp only [List.mem_cons, not_or] at hquote hline
    have hplain := ih hquote.2 hline.2
    rw [unescape]
    · exact .plain (Ne.symm hquote.1) hc (fun he => absurd he.symm hline.1) hplain
    · exact fun _ _ he => absurd he hc
  | @escaped c cs _ ih =>
    simp only [List.mem_cons, not_or] at hquote hline
    rw [unescape]
    exact (ih hquote.2.2 hline.2.2).escapeValue c

/-- Without quotes it can stand between triple quotes, too. -/
theorem tripleBody_of_whole (h : Whole body) (hquote : '\'' ∉ body) :
    TripleBody body (unescapeTriple body) := by
  induction h with
  | nil => exact .nil
  | @plain c cs hc _ ih =>
    simp only [List.mem_cons, not_or] at hquote
    have hplain := ih hquote.2
    rw [unescapeTriple]
    · refine .plain hc (fun hfront => ?_) hplain
      exact hquote.1 (List.cons_prefix_cons.1 hfront).1
    · exact fun _ _ he => absurd he hc
  | @escaped c cs _ ih =>
    simp only [List.mem_cons, not_or] at hquote
    rw [unescapeTriple]
    exact (ih hquote.2.2).escaped

/-- A body stands for one text in both kinds of quotes exactly if no letter in it is escaped that
stands for something else. -/
theorem unescape_eq_iff (h : Whole body) :
    unescape body = unescapeTriple body ↔ ∀ c ∈ valued, ¬ Escapes c body := by
  induction h with
  | nil => exact ⟨fun _ _ _ => not_escapes_nil, fun _ => rfl⟩
  | @plain c cs hc _ ih =>
    rw [unescape, unescapeTriple, List.cons.injEq, and_iff_right rfl, ih]
    · simp only [escapes_plain hc]
    all_goals exact fun _ _ he => absurd he hc
  | @escaped c cs _ ih =>
    rw [unescape, unescapeTriple, List.cons.injEq, ih, escapeValue_eq_iff]
    simp only [escapes_escaped, not_or]
    constructor
    · rintro ⟨hc, hcs⟩ d hd
      exact ⟨fun he => hc (he ▸ hd), hcs d hd⟩
    · exact fun hall => ⟨fun hc => (hall c hc).1 rfl, fun d hd => (hall d hd).2⟩

end Token.Quotes

/-! ## The theorem -/

open Token.Quotes (Whole Escapes valued unescape unescapeTriple)

/-- A body between single quotes. -/
def inSingle (body : List Char) : String := String.ofList ('\'' :: body ++ ['\''])

/-- A body between triple quotes. -/
def inTriple (body : List Char) : String :=
  String.ofList ('\'' :: '\'' :: '\'' :: body ++ ['\'', '\'', '\''])

/-- The text is read as one string, from its first character to its last. -/
def Lexing.IsString (l : Lexing) (text : String) : Prop :=
  l.tokens = [⟨.string text, .start⟩] ∧ l.fault = none

/-- One of the ways to write a string is read as that string. -/
theorem Lexing.isString_of_spells {cs : List Char} {text : String}
    (h : Spells (.string text) cs) : (Lexing.of (String.ofList cs)).IsString text := by
  have hreads := Lexeme.reads_token h (by simp) (Lexeme.reads_nil (.after .start cs))
  rw [List.append_nil, ← String.toList_ofList (l := cs)] at hreads
  exact Lexing.of_of_reads hreads

/-- **Two spellings of one body.**  A body without quotes and line feeds, in which every backslash
goes with a character of the body, is read as one string between single quotes and between triple
quotes, and as the same string exactly if it escapes none of the letters `n`, `t` and `r`. -/
theorem Lexing.exists_isString_inSingle_inTriple {body : List Char} (h : Whole body)
    (hquote : '\'' ∉ body) (hline : '\n' ∉ body) :
    ∃ single triple, (Lexing.of (inSingle body)).IsString single ∧
      (Lexing.of (inTriple body)).IsString triple ∧
      (single = triple ↔ ∀ c ∈ valued, ¬ Escapes c body) := by
  refine ⟨String.ofList (unescape body), String.ofList (unescapeTriple body), ?_, ?_, ?_⟩
  · refine Lexing.isString_of_spells (.string ?_)
    rw [String.toList_ofList]
    exact Token.Quotes.body_of_whole h hquote hline
  · refine Lexing.isString_of_spells (.triple ?_)
    rw [String.toList_ofList]
    exact Token.Quotes.tripleBody_of_whole h hquote
  · rw [← String.toList_inj, String.toList_ofList, String.toList_ofList]
    exact Token.Quotes.unescape_eq_iff h

/-- The letter behind an escaped backslash is not escaped itself. -/
theorem Lexing.exists_isString_escaped_backslash :
    (Whole ['\\', '"', '\\', '\\', 'n'] ∧ '\'' ∉ ['\\', '"', '\\', '\\', 'n'] ∧
      '\n' ∉ ['\\', '"', '\\', '\\', 'n']) ∧
    ∃ text, (Lexing.of "'\\\"\\\\n'").IsString text ∧
      (Lexing.of "'''\\\"\\\\n'''").IsString text := by
  have hwhole : Whole ['\\', '"', '\\', '\\', 'n'] :=
    .escaped (.escaped (.plain (by decide) .nil))
  refine ⟨⟨hwhole, by decide, by decide⟩, ?_⟩
  obtain ⟨single, triple, hsingle, htriple, hiff⟩ :=
    Lexing.exists_isString_inSingle_inTriple hwhole (by decide) (by decide)
  have hnone : ∀ c ∈ valued, ¬ Escapes c ['\\', '"', '\\', '\\', 'n'] := by
    intro c hc
    rw [Token.Quotes.escapes_escaped, Token.Quotes.escapes_escaped,
      Token.Quotes.escapes_plain (by decide), or_iff_left Token.Quotes.not_escapes_nil]
    rintro (rfl | rfl) <;> exact absurd hc (by decide)
  obtain rfl := hiff.2 hnone
  exact ⟨single, hsingle, htriple⟩

/-- An escaped `n` is a line feed in the one spelling and a letter in the other. -/
theorem Lexing.not_isString_both_of_escaped_n :
    (Lexing.of "'a\\nb'").IsString "a\nb" ∧ (Lexing.of "'''a\\nb'''").IsString "anb" ∧
    ¬ ∀ body, body ≠ [] → Whole body → '\'' ∉ body → '\n' ∉ body →
      ∃ text, (Lexing.of (inSingle body)).IsString text ∧
        (Lexing.of (inTriple body)).IsString text := by
  have hsingle : (Lexing.of "'a\\nb'").IsString "a\nb" := ⟨by decide +kernel, by decide +kernel⟩
  have htriple : (Lexing.of "'''a\\nb'''").IsString "anb" := ⟨by decide +kernel, by decide +kernel⟩
  refine ⟨hsingle, htriple, fun h => ?_⟩
  have hwhole : Whole ['a', '\\', 'n', 'b'] :=
    .plain (by decide) (.escaped (.plain (by decide) .nil))
  obtain ⟨text, h₁, h₂⟩ := h _ (List.cons_ne_nil _ _) hwhole (by decide) (by decide)
  have heq : text = "a\nb" := by simpa using h₁.1.symm.trans hsingle.1
  have heq' : text = "anb" := by simpa using h₂.1.symm.trans htriple.1
  exact absurd (heq.symm.trans heq') (by decide)

end SchemaDiagram
