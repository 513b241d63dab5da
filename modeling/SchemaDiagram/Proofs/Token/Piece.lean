import SchemaDiagram.Proofs.Text.LowerCase
import SchemaDiagram.Proofs.Token.Reading
import SchemaDiagram.Proofs.Token.Tiling

/-!
# SchemaDiagram.Proofs.Token.Piece

The first token of a text, and the text behind it.

A text that is read as some tokens is a gap, a lexeme of the first of them, and a text that is read
as the others (`exists_of_reads_cons`).  A word goes on as long as it can, so what stands behind it
is no part of a name, and parts it from the next word (`partsWords_of_reads`).
-/

namespace SchemaDiagram

/-- A gap begins with a blank, or with the slash of a comment. -/
theorem Gap.blank_or_slash {after cs : List Char} (h : Gap after cs) :
    ∀ c ∈ cs.head?, Text.isBlank c = true ∨ c = '/' := by
  intro d hd
  cases h with
  | nil => contradiction
  | blank hc _ => exact .inl (Option.some.inj hd ▸ hc)
  | line _ _ _ => exact .inr (Option.some.inj hd).symm
  | block _ _ => exact .inr (Option.some.inj hd).symm

/-- A word is written as it is. -/
theorem Spells.eq_of_identifier {text : String} {cs : List Char}
    (h : Spells (.identifier text) cs) : cs = text.toList ∧ IsIdentifier text.toList := by
  cases h with
  | identifier h => exact ⟨rfl, h⟩

/-- A symbol is written as it is. -/
theorem Spells.eq_of_symbol {s : Symbol} {cs : List Char} (h : Spells (.symbol s) cs) :
    cs = s.chars := by
  cases h with
  | symbol => rfl

/-! ## Braces -/

/-- Whether a character is a brace. -/
def isBrace (c : Char) : Bool := c == '{' || c == '}'

/-- The braces that a token is. -/
def Token.braces : Token → List Char
  | symbol .openBrace => ['{']
  | symbol .closeBrace => ['}']
  | _ => []

/-- The braces among tokens. -/
def braces (ts : List Located) : List Char := ts.flatMap (·.token.braces)

@[simp] theorem braces_nil : braces [] = [] := rfl

@[simp] theorem braces_cons (t : Located) (ts : List Located) :
    braces (t :: ts) = t.token.braces ++ braces ts := rfl

@[simp] theorem braces_append (ts us : List Located) : braces (ts ++ us) = braces ts ++ braces us :=
  List.flatMap_append

/-- The brace that a token is stands among the braces of its text: the text of a string may have
more. -/
theorem Spells.braces_sublist {t : Token} {cs : List Char} (h : Spells t cs) :
    t.braces.Sublist (cs.filter isBrace) := by
  cases h with
  | symbol s => cases s <;> decide
  | _ => exact List.nil_sublist _

/-! ## The first token -/

namespace Lexeme

/-- Every character of an identifier may stand in a name. -/
theorem isNameChar_of_isIdentifier {cs : List Char} (h : IsIdentifier cs) :
    ∀ c ∈ cs, isNameChar c = true := by
  obtain ⟨digits, d, ds, rfl, hdigits, hstart, hrest⟩ := h
  intro c hc
  rw [List.mem_append, List.mem_cons] at hc
  rcases hc with hc | rfl | hc
  · exact (kinds_of_isDigit (hdigits c hc)).1
  · exact isNameChar_of_isNameStart hstart
  · exact hrest c hc

/-- An identifier has a character. -/
theorem ne_nil_of_isIdentifier {cs : List Char} (h : IsIdentifier cs) : cs ≠ [] := by
  obtain ⟨digits, d, ds, rfl, -⟩ := h
  simp

/-- No character of an identifier is a blank. -/
theorem isBlank_of_isIdentifier {cs : List Char} (h : IsIdentifier cs) :
    ∀ c ∈ cs, Text.isBlank c = false := by
  intro c hc
  have hname := isNameChar_of_isIdentifier h c hc
  cases hblank : Text.isBlank c with
  | false => rfl
  | true =>
    rw [(kinds_of_isBlank hblank).1] at hname
    contradiction

/-- A number is no word, and a word that digits begin ends where no part of a name follows. -/
theorem isNameChar_behind_of_number {c : Char} {cs : List Char} {text : String}
    (ht : (number c cs).1.token = some (.identifier text)) :
    ∀ d ∈ (number c cs).2.head?, isNameChar d = false := by
  unfold number at ht ⊢
  split at ht
  · cases ht
  · cases ht
  · rename_i e after _ _
    split at ht
    · rename_i hstart
      simp only [hstart, if_true]
      exact Text.head?_dropWhile_eq _ _
    · cases ht

/-- A word ends where no part of a name follows. -/
theorem isNameChar_behind_of_first {c : Char} {cs rest : List Char} {l : Lexeme} {text : String}
    (h : first c cs = .ok (l, rest)) (ht : l.token = some (.identifier text)) :
    ∀ d ∈ rest.head?, isNameChar d = false := by
  -- a word begins with a digit or with a letter
  obtain ⟨d, ds, hd, hdigit⟩ : ∃ d ds, l.text = d :: ds ∧
      (Text.isDigit d = true ∨ isNameStart d = true) := by
    obtain ⟨hl, digits, d, ds, htext, hdigits, hstart, -⟩ :=
      (spells_of_first h ht).eq_of_identifier
    rw [hl, htext]
    cases digits with
    | nil => exact ⟨d, ds, rfl, .inr hstart⟩
    | cons e digits => exact ⟨e, _, rfl, .inl (hdigits e List.mem_cons_self)⟩
  have hc : d = c := by
    have := append_of_first h
    rw [hd] at this
    exact (List.cons.inj this).1
  subst hc
  rcases hdigit with hdigit | hstart
  · rw [first_of_isDigit hdigit] at h
    obtain ⟨rfl, rfl⟩ := Prod.mk.inj (Except.ok.inj h)
    exact isNameChar_behind_of_number ht
  · rw [first_of_isNameStart hstart] at h
    cases h
    exact Text.head?_dropWhile_eq _ _

/-- A text that is read as tokens has the first of them behind a gap. -/
theorem exists_of_reads_cons {p : Position} {cs : List Char} {t : Located} {ts : List Located}
    (h : Reads p cs (t :: ts)) :
    ∃ gap lexeme rest, cs = gap ++ (lexeme ++ rest) ∧ Gap (lexeme ++ rest) gap ∧
      t.position = p.after gap ∧ Spells t.token lexeme ∧
      (∀ text, t.token = .identifier text → ∀ c ∈ rest.head?, isNameChar c = false) ∧
      Reads (p.after (gap ++ lexeme)) rest ts := by
  obtain ⟨hfault, htokens⟩ := h
  fun_induction all cs generalizing p with
  | case1 => contradiction
  | case2 => simp at hfault
  | case3 c cs l rest hfirst _ ls fault hall ih =>
    have hcs : c :: cs = l.text ++ rest := (append_of_first hfirst).symm
    cases ht : l.token with
    | some u =>
      simp only [located, ht, Option.map_some, Option.toList_some, List.singleton_append,
        List.cons.injEq] at htokens
      obtain ⟨rfl, rfl⟩ := htokens
      refine ⟨[], l.text, rest, hcs, .nil, rfl, spells_of_first hfirst ht, ?_, ?_⟩
      · rintro text rfl
        exact isNameChar_behind_of_first hfirst ht
      · exact ⟨by rw [hall]; exact hfault, by rw [hall]; rfl⟩
    | none =>
      simp only [located, ht, Option.map_none, Option.toList_none, List.nil_append] at htokens
      obtain ⟨gap, lexeme, more, hrest, hgap, hposition, hspells, hend, hreads⟩ :=
        ih (by rw [hall]; exact hfault) (by rw [hall]; exact htokens)
      refine ⟨l.text ++ gap, lexeme, more, ?_, gap_append_of_first hfirst ht hrest hgap, ?_, hspells,
        hend, ?_⟩
      · rw [hcs, hrest, List.append_assoc]
      · rw [hposition, Position.after_append]
      · rw [List.append_assoc, Position.after_append]
        exact hreads

/-- Tokens that are read stand in the text one behind the other, their braces among its own. -/
theorem exists_of_reads_append {p : Position} {cs : List Char} {xs ts : List Located}
    (h : Reads p cs (xs ++ ts)) :
    ∃ taken rest, cs = taken ++ rest ∧ (braces xs).Sublist (taken.filter isBrace) ∧
      Reads (p.after taken) rest ts := by
  induction xs generalizing p cs with
  | nil => exact ⟨[], cs, rfl, .slnil, h⟩
  | cons x xs ih =>
    obtain ⟨gap, lexeme, rest, rfl, -, -, hspells, -, hreads⟩ := exists_of_reads_cons h
    obtain ⟨taken, more, rfl, hbraces, hmore⟩ := ih hreads
    refine ⟨gap ++ (lexeme ++ taken), more, by simp, ?_, ?_⟩
    · rw [List.filter_append, List.filter_append]
      exact (hspells.braces_sublist.append hbraces).trans (List.sublist_append_right _ _)
    · rw [← List.append_assoc, Position.after_append]
      exact hmore

/-- Behind the text that is done, each token stands in the text with characters of its own, and what
follows it is read from there on. -/
theorem exists_of_reads_append_cons {done cs : List Char} {xs ts : List Located} {t : Located}
    (h : Reads (.behind done) cs (xs ++ t :: ts)) :
    ∃ before lexeme rest, cs = before ++ (lexeme ++ rest) ∧
      (braces xs).Sublist (before.filter isBrace) ∧
      t.position = .behind (done ++ before) ∧ Spells t.token lexeme ∧
      (∀ text, t.token = .identifier text → ∀ c ∈ rest.head?, isNameChar c = false) ∧
      Reads (.behind (done ++ (before ++ lexeme))) rest ts := by
  obtain ⟨taken, more, rfl, hbraces, hmore⟩ := exists_of_reads_append h
  obtain ⟨gap, lexeme, rest, rfl, -, hposition, hspells, hend, hrest⟩ := exists_of_reads_cons hmore
  rw [← Position.after_append, Position.after_behind] at hposition hrest
  refine ⟨taken ++ gap, lexeme, rest, by simp, ?_, hposition, hspells, hend, ?_⟩
  · rw [List.filter_append]
    exact hbraces.trans (List.sublist_append_left _ _)
  · rwa [List.append_assoc taken]

/-- The tokens that follow the name of a table or of a field. -/
def FollowsName (t : Token) : Prop :=
  (∃ text, t = .identifier text) ∨ (∃ text, t = .quoted text) ∨ t = .symbol .openBracket ∨
    t = .symbol .openBrace ∨ t = .symbol .closeBrace

/-- Behind a word that such a token follows, the text goes on with a character that parts words. -/
theorem partsWords_of_reads {p : Position} {cs : List Char} {t : Located} {ts : List Located}
    (h : Reads p cs (t :: ts)) (hend : ∀ c ∈ cs.head?, isNameChar c = false)
    (ht : FollowsName t.token) : ∀ c ∈ cs.head?, Text.PartsWords c := by
  obtain ⟨gap, lexeme, rest, rfl, hgap, -, hspells, -, -⟩ := exists_of_reads_cons h
  cases gap with
  | cons d gap =>
    intro c hc
    rcases hgap.blank_or_slash c hc with hblank | rfl
    · have := Text.of_isBlank (p := fun c => decide (Text.PartsWords c)) (by decide +kernel) hblank
      simpa using this
    · decide
  | nil =>
    rw [List.nil_append] at hend ⊢
    rcases ht with ⟨text, ht⟩ | ⟨text, ht⟩ | ht | ht | ht
    · -- two words do not touch
      rw [ht] at hspells
      obtain ⟨hl, htext⟩ := hspells.eq_of_identifier
      obtain ⟨d, ds, hd⟩ := List.exists_cons_of_ne_nil (ne_nil_of_isIdentifier htext)
      have hname := isNameChar_of_isIdentifier htext d (hd ▸ List.mem_cons_self)
      rw [hl, hd] at hend
      rw [hend d rfl] at hname
      contradiction
    · rw [ht] at hspells
      cases hspells
      intro c hc
      cases hc
      decide
    all_goals
      rw [ht] at hspells
      rw [hspells.eq_of_symbol]
      intro c hc
      cases hc
      decide

end Lexeme

end SchemaDiagram
