import SchemaDiagram.Proofs.Token.Reading

/-!
# SchemaDiagram.Proofs.Token.Concat

What is read of two texts with a line feed between them.

The first text is read as on its own: a line feed goes on with no word, number, colour or sign, and
ends a comment that is open to the end of its line.  Only a gap of blanks at the end of the first
text goes on with it, and that leaves no token.  The second text is read as on its own further below
(`Position.below`).
-/

namespace SchemaDiagram

/-! ## Pieces in front of a line feed -/

section

variable {p : Char → Bool} {c : Char}

/-- What stops in a text or at its end stops there in a longer text as well, if it stops at the next
character. -/
theorem takeWhile_append_cons (hc : p c = false) (cs more : List Char) :
    (cs ++ c :: more).takeWhile p = cs.takeWhile p :=
  Text.takeWhile_append_of_head (by simpa using hc) cs

/-- What is left behind that goes on with the rest of the longer text. -/
theorem dropWhile_append_cons (hc : p c = false) (cs more : List Char) :
    (cs ++ c :: more).dropWhile p = cs.dropWhile p ++ c :: more :=
  Text.dropWhile_append_of_head (by simpa using hc) cs

end

namespace Token.Quotes

/-- A quote that is closed is closed whatever follows. -/
theorem cut_append {quote : Char} (hq : quote ≠ '\\') {cs body rest : List Char}
    (h : cut quote cs = some (body, rest)) (more : List Char) :
    cut quote (cs ++ more) = some (body, rest ++ more) := by
  fun_induction cut quote cs generalizing body rest with
  | case1 => contradiction
  | case2 c cs ih =>
    obtain ⟨⟨b, r⟩, hb, he⟩ := Option.map_eq_some_iff.1 h
    cases he
    rw [List.cons_append, List.cons_append, cut_escaped, ih hb]
    rfl
  | case3 cs =>
    cases h
    exact cut_quote hq _
  | case4 => contradiction
  | case5 c cs hback hquote hline ih =>
    obtain ⟨⟨b, r⟩, hb, he⟩ := Option.map_eq_some_iff.1 h
    cases he
    have hplain : c ≠ '\\' := by
      rintro rfl
      cases cs with
      | nil => contradiction
      | cons d cs => exact hback d cs rfl rfl
    rw [List.cons_append, cut_plain hquote hplain fun hc => by simpa [hc, grave] using hline, ih hb]
    rfl

/-- A text that three quotes close is closed whatever follows. -/
theorem cutTriple_append {cs body rest : List Char} (h : cutTriple cs = some (body, rest))
    (more : List Char) : cutTriple (cs ++ more) = some (body, rest ++ more) := by
  fun_induction cutTriple cs generalizing body rest with
  | case1 => contradiction
  | case2 c cs ih =>
    obtain ⟨⟨b, r⟩, hb, he⟩ := Option.map_eq_some_iff.1 h
    cases he
    rw [List.cons_append, List.cons_append, cutTriple, ih hb]
    rfl
  | case3 => cases h; rw [List.cons_append, List.cons_append, List.cons_append, cutTriple]
  | case4 c cs hback hclose ih =>
    obtain ⟨⟨b, r⟩, hb, he⟩ := Option.map_eq_some_iff.1 h
    cases he
    rw [List.cons_append, cutTriple, ih hb]
    · rfl
    · rintro d after rfl hcs
      cases cs with
      | nil => contradiction
      | cons d cs => cases hcs; exact hback d cs rfl rfl
    · rintro after rfl hcs
      cases cs with
      | nil => contradiction
      | cons d cs =>
        cases cs with
        | nil =>
          cases hcs
          simp [cutTriple] at hb
        | cons e cs => cases hcs; exact hclose cs rfl rfl

end Token.Quotes

namespace Lexeme

/-- A comment that is closed is closed whatever follows. -/
theorem cutComment_append {cs body rest : List Char} (h : cutComment cs = some (body, rest))
    (more : List Char) : cutComment (cs ++ more) = some (body, rest ++ more) := by
  fun_induction cutComment cs generalizing body rest with
  | case1 => contradiction
  | case2 => cases h; rfl
  | case3 c cs hclose ih =>
    obtain ⟨⟨b, r⟩, hb, he⟩ := Option.map_eq_some_iff.1 h
    cases he
    rw [List.cons_append, cutComment, ih hb]
    · rfl
    · rintro after rfl hcs
      cases cs with
      | nil => contradiction
      | cons d cs => cases hcs; exact hclose cs rfl rfl

variable {c : Char} {cs rest : List Char} {l : Lexeme}

/-- A line feed is a blank, and no part of a word, a number or a colour. -/
theorem kinds_of_newline : isNameChar '\n' = false ∧ isNameStart '\n' = false ∧
    Text.isDigit '\n' = false ∧ Text.isHexDigit '\n' = false ∧ Text.isBlank '\n' = true := by
  decide +kernel

/-- An identifier ends where it did, or else at the line feed. -/
theorem identifier_append_newline (begun cs more : List Char) :
    identifier begun (cs ++ '\n' :: more) =
      ((identifier begun cs).1, (identifier begun cs).2 ++ '\n' :: more) := by
  rw [identifier, takeWhile_append_cons kinds_of_newline.1, dropWhile_append_cons kinds_of_newline.1]
  rfl

/-- A number ends where it did, or else at the line feed. -/
theorem number_append_newline (c : Char) (cs more : List Char) :
    number c (cs ++ '\n' :: more) = ((number c cs).1, (number c cs).2 ++ '\n' :: more) := by
  obtain ⟨-, hstart, hdigit, -⟩ := kinds_of_newline
  unfold number
  rw [takeWhile_append_cons hdigit, dropWhile_append_cons hdigit]
  cases cs.dropWhile Text.isDigit with
  | nil => simp [hstart, numeral]
  | cons d after =>
    by_cases hd : d = '.'
    · subst hd
      simp only [List.cons_append, takeWhile_append_cons hdigit, dropWhile_append_cons hdigit]
      rfl
    · simp only [List.cons_append]
      split
      · exact identifier_append_newline _ (d :: after) more
      · rfl

/-- A quoted token that is read is read whatever follows. -/
theorem between_append {quote : Char} {make : String → Token} (hq : quote ≠ '\\')
    (h : between quote make cs = .ok (l, rest)) (more : List Char) :
    between quote make (cs ++ more) = .ok (l, rest ++ more) := by
  unfold between at h
  split at h
  · contradiction
  · rename_i hcut
    cases h
    rw [between, Token.Quotes.cut_append hq hcut]

/-- A piece that begins with a mark is read as it is in front of a line feed. -/
theorem first_append_of_mark (hm : c ∈ marks) (h : first c cs = .ok (l, rest)) (more : List Char) :
    first c (cs ++ '\n' :: more) = .ok (l, rest ++ '\n' :: more) := by
  unfold first at h
  split at h
  · cases h
    rw [List.cons_append, first, lineComment, ← List.cons_append, ← List.cons_append,
      takeWhile_append_cons (by decide), dropWhile_append_cons (by decide)]
  · unfold blockComment at h
    split at h
    · contradiction
    · rename_i hcut
      cases h
      rw [List.cons_append, first, blockComment, cutComment_append hcut]
  · cases h
    rfl
  · unfold betweenTriple at h
    split at h
    · contradiction
    · rename_i hcut
      cases h
      rw [List.cons_append, List.cons_append, first, betweenTriple,
        Token.Quotes.cutTriple_append hcut]
  · rename_i htriple
    rw [first]
    · exact between_append (by decide) h _
    · rintro after hcs
      cases cs with
      | nil => contradiction
      | cons d cs =>
        cases cs with
        | nil => cases hcs
        | cons e cs => cases hcs; exact htriple cs rfl
  · exact between_append (by decide) h _
  · exact between_append (by decide) h _
  · rename_i d after
    split at h
    · rename_i hhex
      cases h
      rw [List.cons_append, first, if_pos hhex, color, ← List.cons_append,
        takeWhile_append_cons (by decide), dropWhile_append_cons (by decide)]
    · contradiction
  · rename_i hgreater _ _
    obtain ⟨hblank, hdigit, hname⟩ := kinds_of_mem_marks hm
    rw [hblank, hdigit, hname] at h
    by_cases hless : c = '<'
    · subst hless
      cases h
      refine first_of_less fun d hd => ?_
      rintro rfl
      cases cs with
      | nil => cases hd
      | cons e cs => cases hd; exact hgreater cs rfl rfl
    · rw [ofChar?_of_mem_marks hm hless] at h
      contradiction

/-- A piece other than blanks is read as it is in front of a line feed. -/
theorem first_append_newline (hc : Text.isBlank c = false) (h : first c cs = .ok (l, rest))
    (more : List Char) : first c (cs ++ '\n' :: more) = .ok (l, rest ++ '\n' :: more) := by
  by_cases hm : c ∈ marks
  · exact first_append_of_mark hm h more
  rw [first_of_not_mark hm, hc, if_neg Bool.false_ne_true] at h ⊢
  split at h
  · rename_i hdigit
    rw [if_pos hdigit, number_append_newline, Except.ok.inj h]
  · rename_i hdigit
    rw [if_neg hdigit]
    split at h
    · rename_i hname
      rw [if_pos hname, identifier_append_newline, Except.ok.inj h]
    · rename_i hname
      rw [if_neg hname]
      split at h
      · cases h
        rfl
      · contradiction

/-! ## Texts -/

/-- A text that is read begins with a piece, and the rest of it is read behind that. -/
theorem exists_first_of_reads {p : Position} {ts : List Located} (h : Reads p (c :: cs) ts) :
    ∃ l rest us, first c cs = .ok (l, rest) ∧
      ts = (l.token.map fun t => (⟨t, p⟩ : Located)).toList ++ us ∧
      Reads (p.after l.text) rest us := by
  cases hfirst : first c cs with
  | error fault =>
    rw [Reads, all] at h
    split at h
    · simp at h
    · rename_i heq
      rw [hfirst] at heq
      contradiction
  | ok r =>
    obtain ⟨l, rest⟩ := r
    rw [Reads, all_of_first hfirst] at h
    exact ⟨l, rest, _, rfl, h.2.symm, h.1, rfl⟩

/-- A first piece and what is read behind it are read together. -/
theorem reads_of_first {p : Position} {us : List Located} (hfirst : first c cs = .ok (l, rest))
    (h : Reads (p.after l.text) rest us) :
    Reads p (c :: cs) ((l.token.map fun t => (⟨t, p⟩ : Located)).toList ++ us) := by
  rw [Reads, all_of_first hfirst]
  exact ⟨h.1, by rw [located, h.2]⟩

/-- A blank at the front of a text leaves no token. -/
theorem reads_of_reads_blank {p : Position} {ts : List Located} (hc : Text.isBlank c = true)
    (h : Reads p (c :: cs) ts) : Reads (p.next c) cs ts := by
  obtain ⟨l, rest, us, hfirst, rfl, hrest⟩ := exists_first_of_reads h
  rw [first_of_isBlank hc] at hfirst
  cases hfirst
  rw [← List.takeWhile_append_dropWhile (p := Text.isBlank) (l := cs)]
  exact reads_blanks (fun _ => List.mem_takeWhile_imp) hrest

/-- **Texts with a line feed between them are read one after the other.** -/
theorem reads_append_newline {p : Position} {cs more : List Char} {ts us : List Located}
    (h : Reads p cs ts) (hmore : Reads (p.after (cs ++ ['\n'])) more us) :
    Reads p (cs ++ '\n' :: more) (ts ++ us) := by
  match cs with
  | [] =>
    rw [Reads, all] at h
    obtain rfl : [] = ts := h.2
    exact reads_blank kinds_of_newline.2.2.2.2 hmore
  | c :: cs =>
    cases hc : Text.isBlank c with
    | true => exact reads_blank hc (reads_append_newline (reads_of_reads_blank hc h) hmore)
    | false =>
      obtain ⟨l, rest, vs, hfirst, rfl, hrest⟩ := exists_first_of_reads h
      rw [List.append_assoc]
      refine reads_of_first (first_append_newline hc hfirst more) (reads_append_newline hrest ?_)
      rw [← Position.after_append, ← List.append_assoc, append_of_first hfirst]
      exact hmore
termination_by cs.length
decreasing_by
  · exact length_lt_of_first hfirst
  · exact Nat.lt_succ_self _

end Lexeme

/-! ## Texts further below -/

/-- The same column, some lines further below. -/
def Position.below (n : Nat) (p : Position) : Position := ⟨p.line + n, p.column⟩

/-- A token some lines further below. -/
def Located.below (n : Nat) (t : Located) : Located := ⟨t.token, t.position.below n⟩

/-- A character moves a position further below alike: only a line feed changes its line. -/
theorem Position.next_below (n : Nat) (p : Position) (c : Char) :
    (p.below n).next c = (p.next c).below n := by
  unfold next below
  split
  · rw [Nat.add_right_comm]
  · rfl

/-- A text moves a position further below alike. -/
theorem Position.after_below (n : Nat) (p : Position) (cs : List Char) :
    (p.below n).after cs = (p.after cs).below n := by
  induction cs generalizing p with
  | nil => rfl
  | cons c cs ih => rw [after_cons, after_cons, next_below, ih]

/-- Behind a line feed a text goes on as at its start, some lines further below. -/
theorem Position.exists_below (cs : List Char) : ∃ n, start.after (cs ++ ['\n']) = start.below n := by
  refine ⟨(start.after cs).line, ?_⟩
  rw [after_append, after_cons, after_nil, next, if_pos rfl, below, Nat.add_comm]
  rfl

/-- The tokens of a text that stands further below are further below by as many lines. -/
theorem Lexeme.located_below (n : Nat) (p : Position) (ls : List Lexeme) :
    located (p.below n) ls = (located p ls).map (.below n) := by
  induction ls generalizing p with
  | nil => rfl
  | cons l ls ih =>
    rw [located, located, Position.after_below, ih, List.map_append]
    cases l.token <;> rfl

/-- A text is read alike further below. -/
theorem Lexeme.Reads.below {p : Position} {cs : List Char} {ts : List Located} (h : Reads p cs ts)
    (n : Nat) : Reads (p.below n) cs (ts.map (.below n)) :=
  ⟨h.1, by rw [located_below, h.2]⟩

/-- The tokens of a text, a line feed and another text are those of the one, and those of the other
further below. -/
theorem Lexing.exists_tokens_append {a b : String} (ha : (of a).fault = none)
    (hb : (of b).fault = none) :
    ∃ n, (of (a ++ "\n" ++ b)).tokens = (of a).tokens ++ (of b).tokens.map (.below n) ∧
      (of (a ++ "\n" ++ b)).fault = none := by
  obtain ⟨n, hn⟩ := Position.exists_below a.toList
  have hbelow : Lexeme.Reads (Position.start.after (a.toList ++ ['\n'])) b.toList
      ((of b).tokens.map (.below n)) := by
    rw [hn]
    exact Lexeme.Reads.below ⟨hb, rfl⟩ n
  refine ⟨n, of_of_reads ?_⟩
  have htext : (a ++ "\n" ++ b).toList = a.toList ++ '\n' :: b.toList := by simp
  rw [htext]
  exact Lexeme.reads_append_newline ⟨ha, rfl⟩ hbelow

end SchemaDiagram
