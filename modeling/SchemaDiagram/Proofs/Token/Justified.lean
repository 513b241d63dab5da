import SchemaDiagram.Proofs.Token.Fault

/-!
# SchemaDiagram.Proofs.Token.Justified

Reading stops only where there is a reason to.

`Fault.IsJustified` says of each fault what is wrong with the text from there on, without the
functions that read it.  A quote or a line feed counts only if it is not escaped, that is, if it
stands behind a `Whole` stretch of text, in which no backslash lacks the character it goes with.
-/

namespace SchemaDiagram

namespace Token.Quotes

/-! ## Escaped characters -/

/-- Text in which every backslash has the character that it goes with, so what stands behind the
text is not escaped. -/
inductive Whole : List Char → Prop
  | nil : Whole []
  | plain {c : Char} {cs : List Char} : c ≠ '\\' → Whole cs → Whole (c :: cs)
  | escaped {c : Char} {cs : List Char} : Whole cs → Whole ('\\' :: c :: cs)

/-- A word stands in a text behind the given front of it, and is not escaped. -/
structure Stands (before word cs : List Char) : Prop where
  whole : Whole before
  front : before ++ word <+: cs

variable {before word cs : List Char} {c d : Char}

theorem not_stands_nil (h : word ≠ []) : ¬ Stands before word [] := by
  rintro ⟨-, hfront⟩
  exact h (List.append_eq_nil_iff.1 (List.prefix_nil.1 hfront)).2

/-- What stands in a text behind an escaped character stands in the text that is left. -/
theorem stands_escaped (h : Stands before (d :: word) ('\\' :: c :: cs)) (hd : d ≠ '\\') :
    ∃ before', before = '\\' :: c :: before' ∧ Stands before' (d :: word) cs := by
  obtain ⟨hwhole, hfront⟩ := h
  cases hwhole with
  | nil => exact absurd (List.cons_prefix_cons.1 hfront).1 hd
  | plain hplain => exact absurd (List.cons_prefix_cons.1 hfront).1 hplain
  | @escaped e before' hwhole =>
    obtain ⟨rfl, hfront'⟩ := List.cons_prefix_cons.1 (List.cons_prefix_cons.1 hfront).2
    exact ⟨before', rfl, hwhole, hfront'⟩

/-- What stands in a text stands at its front, or in the text behind its first character, if no
other character goes with this. -/
theorem stands_cons (h : Stands before word (c :: cs)) (hc : ∀ d ds, c = '\\' → cs ≠ d :: ds) :
    (before = [] ∧ word <+: c :: cs) ∨
      ∃ before', before = c :: before' ∧ c ≠ '\\' ∧ Stands before' word cs := by
  obtain ⟨hwhole, hfront⟩ := h
  cases hwhole with
  | nil => exact .inl ⟨rfl, hfront⟩
  | plain hplain hwhole =>
    obtain ⟨rfl, hfront'⟩ := List.cons_prefix_cons.1 hfront
    exact .inr ⟨_, rfl, hplain, hwhole, hfront'⟩
  | escaped =>
    obtain ⟨rfl, after, hafter⟩ := List.cons_prefix_cons.1 hfront
    exact absurd hafter.symm (hc _ _ rfl)

/-! ## Quotes that are not closed -/

/-- Where a quote is not closed, a line feed stands before each quote that could close it. -/
theorem exists_newline_of_cut {quote : Char} (hq : quote ≠ '\\') (h : cut quote cs = none)
    (hs : Stands before [quote] cs) : quote ≠ grave ∧ ∃ line, Stands line ['\n'] before := by
  fun_induction cut quote cs generalizing before with
  | case1 => exact absurd hs (not_stands_nil (by simp))
  | case2 c cs ih =>
    obtain ⟨before', rfl, hs'⟩ := stands_escaped hs hq
    obtain ⟨hgrave, line, hline⟩ := ih (Option.map_eq_none_iff.1 h) hs'
    exact ⟨hgrave, '\\' :: c :: line, .escaped hline.whole, by simpa using hline.front⟩
  | case3 => contradiction
  | case4 c cs hback hquote hline =>
    rcases stands_cons hs hback with ⟨-, hfront⟩ | ⟨before', rfl, -, -⟩
    · exact absurd (List.cons_prefix_cons.1 hfront).1.symm hquote
    · exact ⟨hline.2, [], .nil, by simp [hline.1]⟩
  | case5 c cs hback hquote _ ih =>
    rcases stands_cons hs hback with ⟨-, hfront⟩ | ⟨before', rfl, hplain, hs⟩
    · exact absurd (List.cons_prefix_cons.1 hfront).1.symm hquote
    · obtain ⟨hgrave, line, hline⟩ := ih (Option.map_eq_none_iff.1 h) hs
      exact ⟨hgrave, c :: line, .plain hplain hline.whole, by simpa using hline.front⟩

/-- Where three quotes are not closed, no three quotes stand behind them. -/
theorem not_stands_of_cutTriple (h : cutTriple cs = none) :
    ¬ Stands before ['\'', '\'', '\''] cs := by
  intro hs
  fun_induction cutTriple cs generalizing before with
  | case1 => exact not_stands_nil (by simp) hs
  | case2 c cs ih =>
    obtain ⟨_, -, hs⟩ := stands_escaped hs (by decide)
    exact ih (Option.map_eq_none_iff.1 h) hs
  | case3 => contradiction
  | case4 c cs hback hclose ih =>
    rcases stands_cons hs hback with ⟨-, after, hafter⟩ | ⟨_, -, -, hs⟩
    · cases hafter
      exact hclose after rfl rfl
    · exact ih (Option.map_eq_none_iff.1 h) hs

end Token.Quotes

/-! ## Reasons -/

open Token.Quotes (Stands)

/-- What is wrong with a text at its front. -/
inductive Fault.IsJustified : Fault → List Char → Prop
  /-- The character is no blank and begins no token, unless it is a number sign without a digit
  behind it, and no comment. -/
  | unexpectedCharacter {c : Char} {rest : List Char} : Text.isBlank c = false →
      (∀ t word, Spells t word → c ∈ word.head? →
        c = '#' ∧ ∀ d ∈ rest.head?, Text.isHexDigit d = false) →
      (c = '/' → ∀ d ∈ rest.head?, d ≠ '/' ∧ d ≠ '*') →
      IsJustified (.unexpectedCharacter c) (c :: rest)
  | unterminatedComment {inside : List Char} : ¬ ['*', '/'] <:+: inside →
      IsJustified .unterminatedComment ('/' :: '*' :: inside)
  | unterminatedTriple {inside : List Char} :
      (∀ before, ¬ Stands before ['\'', '\'', '\''] inside) →
      IsJustified .unterminatedString ('\'' :: '\'' :: '\'' :: inside)
  /-- A line feed stands before each quote, if there is any, and then the quotes are no grave
  accents. -/
  | unterminatedQuote {quote : Char} {inside : List Char} : quote ∈ ['\'', '"', '\x60'] →
      ¬ ['\'', '\'', '\''] <+: quote :: inside →
      (∀ before, Stands before [quote] inside →
        quote ≠ '\x60' ∧ ∃ line, Stands line ['\n'] before) →
      IsJustified .unterminatedString (quote :: inside)

namespace Lexeme

/-- The characters that a token can begin with. -/
theorem head_of_spells {t : Token} {word : List Char} {c : Char} (h : Spells t word)
    (hc : c ∈ word.head?) : c ∈ ['\'', '"', '\x60', '#'] ∨ Text.isDigit c = true ∨
      isNameStart c = true ∨ (Symbol.ofChar? c).isSome = true := by
  cases h with
  | symbol s => cases s <;> cases hc <;> decide
  | identifier h =>
    obtain ⟨digits, d, ds, heq, hdigits, hstart, -⟩ := h
    rw [heq] at hc
    cases digits with
    | nil => cases hc; exact .inr (.inr (.inl hstart))
    | cons e digits => cases hc; exact .inr (.inl (hdigits _ List.mem_cons_self))
  | number h =>
    obtain ⟨whole, hne, hwhole, heq⟩ := h
    cases whole with
    | nil => exact absurd rfl hne
    | cons e digits =>
      refine .inr (.inl (hwhole c ?_))
      rcases heq with heq | ⟨fraction, heq, -⟩
      all_goals
        rw [heq] at hc
        cases hc
        exact List.mem_cons_self
  | color h =>
    obtain ⟨digits, heq, -⟩ := h
    rw [heq] at hc
    cases hc
    decide
  | string | triple | quoted | expression => cases hc; decide

/-- A quote that is not closed is justly at fault: a line feed stands before each quote that could
close it. -/
theorem isJustified_of_between {quote : Char} {make : String → Token} {cs : List Char}
    {fault : Fault} (hq : quote ∈ ['\'', '"', '\x60'])
    (htriple : ¬ ['\'', '\'', '\''] <+: quote :: cs) (h : between quote make cs = .error fault) :
    fault.IsJustified (quote :: cs) := by
  unfold between at h
  split at h
  · rename_i hcut
    cases h
    have hback : quote ≠ '\\' := by
      rintro rfl
      revert hq
      decide
    exact .unterminatedQuote hq htriple fun before hs =>
      Token.Quotes.exists_newline_of_cut hback hcut hs
  · contradiction

/-- A character that is of no kind begins nothing, unless more characters decide. -/
theorem isJustified_of_ofChar?_eq_none {c : Char} {cs : List Char}
    (hblank : Text.isBlank c = false) (hdigit : Text.isDigit c = false)
    (hstart : isNameStart c = false) (hsymbol : Symbol.ofChar? c = none)
    (hquote : c ∉ ['\'', '"', '\x60'])
    (hsharp : c = '#' → ∀ d ∈ cs.head?, Text.isHexDigit d = false)
    (hslash : c = '/' → ∀ d ∈ cs.head?, d ≠ '/' ∧ d ≠ '*') :
    (Fault.unexpectedCharacter c).IsJustified (c :: cs) := by
  refine .unexpectedCharacter hblank (fun t word hword hc => ?_) hslash
  rcases head_of_spells hword hc with hc | hc | hc | hc
  · obtain hc | rfl : c ∈ ['\'', '"', '\x60'] ∨ c = '#' := by
      simpa only [List.mem_cons, List.not_mem_nil, or_false, or_assoc] using hc
    · exact absurd hc hquote
    · exact ⟨rfl, hsharp rfl⟩
  · rw [hdigit] at hc
    contradiction
  · rw [hstart] at hc
    contradiction
  · rw [hsymbol] at hc
    contradiction

/-- A text without a first piece has something wrong with it. -/
theorem isJustified_of_first {c : Char} {cs : List Char} {fault : Fault}
    (h : first c cs = .error fault) : fault.IsJustified (c :: cs) := by
  unfold first at h
  split at h
  · contradiction
  · unfold blockComment at h
    split at h
    · rename_i hcut
      cases h
      exact .unterminatedComment (cutComment_eq_none_iff.1 hcut)
    · contradiction
  · contradiction
  · unfold betweenTriple at h
    split at h
    · rename_i hcut
      cases h
      exact .unterminatedTriple fun before => Token.Quotes.not_stands_of_cutTriple hcut
    · contradiction
  · rename_i hnot
    refine isJustified_of_between (by simp) ?_ h
    rintro ⟨after, hafter⟩
    cases hafter
    exact hnot after rfl
  · exact isJustified_of_between (by simp) (by simp) h
  · exact isJustified_of_between (by simp) (by simp) h
  · rename_i d after
    split at h
    · contradiction
    · rename_i hhex
      cases h
      refine isJustified_of_ofChar?_eq_none rfl rfl rfl rfl (by simp) (fun _ => ?_) (by simp)
      rintro _ ⟨⟩
      simpa using hhex
  · rename_i hsingle hdouble hgrave hslash hstar _ _ hsharp
    split at h
    · contradiction
    rename_i hblank
    split at h
    · contradiction
    rename_i hdigit
    split at h
    · contradiction
    rename_i hstart
    split at h
    · contradiction
    rename_i hsymbol
    cases h
    refine isJustified_of_ofChar?_eq_none (by simpa using hblank) (by simpa using hdigit)
      (by simpa using hstart) hsymbol
      (by simpa using ⟨hsingle, hdouble, hgrave⟩) ?_ ?_
    · rintro rfl d hd
      obtain ⟨ds, rfl⟩ := List.head?_eq_some_iff.1 hd
      exact absurd rfl (hsharp d ds rfl)
    · rintro rfl d hd
      obtain ⟨ds, rfl⟩ := List.head?_eq_some_iff.1 hd
      refine ⟨?_, ?_⟩
      · rintro rfl
        exact hslash ds rfl rfl
      · rintro rfl
        exact hstar ds rfl rfl

end Lexeme

/-! ## The theorem -/

/-- **A fault is justified.**  Where reading stops at a fault, the text up to there is read without
one as the same tokens, the position is the one behind it, and something is wrong with the rest of
the text. -/
theorem Lexing.isJustified_of_fault {source : String} {fault : Fault}
    (h : (Lexing.of source).fault = some fault) :
    ∃ before after, source.toList = before ++ after ∧
      (Lexing.of source).finish = .behind before ∧
      Lexing.of (String.ofList before) =
        ⟨(Lexing.of source).tokens, (Lexing.of source).finish, none⟩ ∧
      fault.IsJustified after := by
  obtain ⟨before, c, rest, hcs, hfirst, hbefore⟩ := Lexeme.exists_all_of_fault source.toList h
  obtain ⟨_, _, -, hfinish, -⟩ := Lexeme.exists_tiling [] before (by rw [hbefore])
  rw [hbefore] at hfinish
  refine ⟨before, c :: rest, hcs, hfinish, ?_, Lexeme.isJustified_of_first hfirst⟩
  rw [Lexing.of, String.toList_ofList, hbefore]
  rfl

/-- A text with an escaped line feed, and a quote that a line feed leaves open. -/
theorem Lexing.isJustified_of_fault_newline :
    (Lexing.of "'a\\\nb' \"c\n\"").fault = some .unterminatedString ∧
      ∃ before after, "'a\\\nb' \"c\n\"".toList = before ++ after ∧
        (Lexing.of "'a\\\nb' \"c\n\"").finish = .behind before ∧
        Lexing.of (String.ofList before) =
          ⟨(Lexing.of "'a\\\nb' \"c\n\"").tokens, (Lexing.of "'a\\\nb' \"c\n\"").finish, none⟩ ∧
        Fault.unterminatedString.IsJustified after :=
  have h : (Lexing.of "'a\\\nb' \"c\n\"").fault = some .unterminatedString := by decide +kernel
  ⟨h, Lexing.isJustified_of_fault h⟩

end SchemaDiagram
