import SchemaDiagram.Proofs.Token.Spelling
import SchemaDiagram.Token.Lexing

/-!
# SchemaDiagram.Proofs.Token.Reading

What spells a token is read as this token: the other direction of `spells_of_first`.

1. A token is read up to its end if the character behind it is no part of it (`Token.isEndedBy`).  A
   blank never is.
2. `Reads` says what is read of a text without a fault.  Blanks add nothing to it, and what spells
   a token adds the token.  `IsReadAs` says the same of tokens without their positions.
-/

namespace SchemaDiagram

/-! ## Quoted text -/

namespace Token.Quotes

variable {quote : Char} {body text rest : List Char}

/-- Behind a backslash any character belongs to the body, the quote too. -/
theorem cut_escaped (c : Char) (cs : List Char) :
    cut quote ('\\' :: c :: cs) = (cut quote cs).map fun (body, rest) => ('\\' :: c :: body, rest) := by
  rw [cut]

/-- The body ends at its quote. -/
theorem cut_quote (hq : quote ≠ '\\') (cs : List Char) : cut quote (quote :: cs) = some ([], cs) := by
  rw [cut]
  · rw [if_pos rfl]
  · exact fun _ _ h => absurd h hq

/-- A character that is neither quote nor backslash belongs to the body, a line feed only between
backticks. -/
theorem cut_plain {c : Char} (hquote : c ≠ quote) (hback : c ≠ '\\')
    (hline : c = '\n' → quote = '\x60') (cs : List Char) :
    cut quote (c :: cs) = (cut quote cs).map fun (body, rest) => (c :: body, rest) := by
  rw [cut]
  · rw [if_neg hquote, if_neg fun h => h.2 (hline h.1)]
  · exact fun _ _ h => absurd h hback

/-- A body does not begin with its quote. -/
theorem ne_quote_of_body (hq : quote ≠ '\\') (h : Body quote body text) :
    ∀ c ∈ body.head?, c ≠ quote := by
  cases h with
  | nil => simp
  | plain hquote => simpa using hquote
  | lineFeed | tab | carriageReturn | escaped => simpa using hq.symm

/-- A body is cut off up to its quote. -/
theorem cut_of_body (hq : quote ≠ '\\') (h : Body quote body text) (rest : List Char) :
    cut quote (body ++ quote :: rest) = some (body, rest) := by
  induction h with
  | nil => exact cut_quote hq rest
  | plain hquote hback hline _ ih => rw [List.cons_append, cut_plain hquote hback hline, ih]; rfl
  | lineFeed _ ih => rw [List.cons_append, List.cons_append, cut_escaped, ih]; rfl
  | tab _ ih => rw [List.cons_append, List.cons_append, cut_escaped, ih]; rfl
  | carriageReturn _ ih => rw [List.cons_append, List.cons_append, cut_escaped, ih]; rfl
  | escaped _ _ ih => rw [List.cons_append, List.cons_append, cut_escaped, ih]; rfl

/-- A body stands for the text it spells. -/
theorem unescape_of_body (h : Body quote body text) : unescape body = text := by
  induction h with
  | nil => rfl
  | plain _ hback _ _ ih =>
    rw [unescape, ih]
    exact fun _ _ h => absurd h hback
  | lineFeed _ ih => rw [unescape, ih]; rfl
  | tab _ ih => rw [unescape, ih]; rfl
  | carriageReturn _ ih => rw [unescape, ih]; rfl
  | @escaped c _ _ hc _ ih =>
    have hvalue : escapeValue c = c := by
      simp only [List.mem_cons, List.not_mem_nil, or_false, not_or] at hc
      unfold escapeValue
      split
      · exact absurd rfl hc.1
      · exact absurd rfl hc.2.1
      · exact absurd rfl hc.2.2
      · rfl
    rw [unescape, ih, hvalue]

/-- A body is cut off up to its three quotes, and stands for the text it spells. -/
theorem cutTriple_of_tripleBody (h : TripleBody body text) (rest : List Char) :
    cutTriple (body ++ '\'' :: '\'' :: '\'' :: rest) = some (body, rest) ∧
      unescapeTriple body = text := by
  induction h with
  | nil => exact ⟨by rw [List.nil_append, cutTriple], rfl⟩
  | @plain c cs ds hback hopen _ ih =>
    constructor
    · rw [List.cons_append, cutTriple, ih.1]
      · rfl
      · exact fun _ _ h => absurd h hback
      · rintro after rfl hcs
        refine hopen ?_
        cases cs with
        | nil => exact ⟨['\''], rfl⟩
        | cons a cs =>
          cases cs with
          | nil => cases hcs; exact ⟨['\'', '\''], rfl⟩
          | cons b cs => cases hcs; exact ⟨cs ++ ['\'', '\'', '\''], rfl⟩
    · rw [unescapeTriple, ih.2]
      exact fun _ _ h => absurd h hback
  | escaped _ ih =>
    exact ⟨by rw [List.cons_append, List.cons_append, cutTriple, ih.1]; rfl,
      by rw [unescapeTriple, ih.2]⟩

end Token.Quotes

/-! ## Kinds of character -/

namespace Text

/-- What holds of the blanks, which are few, holds of a blank. -/
theorem of_isBlank {p : Char → Bool} (hall : ∀ r ∈ whiteSpace.ranges,
    ∀ n ∈ List.range' r.1 (r.2 + 1 - r.1), p (Char.ofNat n) = true) {c : Char}
    (h : isBlank c = true) : p c = true := by
  obtain ⟨r, hr, hfirst, hlast⟩ := CharSet.contains_eq_true_iff.1 h
  have := hall r hr c.toNat (List.mem_range'_1.2 ⟨hfirst, by omega⟩)
  rwa [Char.ofNat_toNat] at this

/-- What holds of the ten digits holds of a digit. -/
theorem of_isDigit {p : Char → Bool} (hall : ∀ n ∈ List.range' 48 10, p (Char.ofNat n) = true)
    {c : Char} (h : isDigit c = true) : p c = true := by
  simp only [isDigit, Bool.and_eq_true, decide_eq_true_eq] at h
  obtain ⟨hfirst, hlast⟩ : 48 ≤ c.toNat ∧ c.toNat ≤ 57 := h
  have := hall c.toNat (List.mem_range'_1.2 ⟨hfirst, by omega⟩)
  rwa [Char.ofNat_toNat] at this

end Text

namespace Lexeme

/-- A blank is no part of a word or a number. -/
theorem kinds_of_isBlank {c : Char} (h : Text.isBlank c = true) :
    isNameChar c = false ∧ Text.isHexDigit c = false := by
  have := Text.of_isBlank (p := fun c => !isNameChar c && !Text.isHexDigit c) (by decide +kernel) h
  simpa using this

/-- A digit is a part of a word, but begins none. -/
theorem kinds_of_isDigit {c : Char} (h : Text.isDigit c = true) :
    isNameChar c = true ∧ isNameStart c = false := by
  have := Text.of_isDigit (p := fun c => isNameChar c && !isNameStart c) (by decide) h
  simpa using this

/-- The characters that begin a piece of their own kind. -/
def marks : List Char := ['/', '<', '\'', '"', '\x60', '#']

/-- The marks, and the characters that are symbols on their own. -/
def punctuation : List Char :=
  marks ++ ['\x7b', '\x7d', '(', ')', '[', ']', ',', ':', '.', '>', '-']

/-- What is written with punctuation is no blank, and begins no number and no word. -/
theorem kinds_of_mem_punctuation {c : Char} (h : c ∈ punctuation) :
    Text.isBlank c = false ∧ Text.isDigit c = false ∧ isNameStart c = false := by
  have hall : punctuation.all
      (fun c => !Text.isBlank c && !Text.isDigit c && !isNameStart c) = true := by decide
  simpa [and_assoc] using List.all_eq_true.1 hall c h

/-- No mark is a blank, a digit or the beginning of a name. -/
theorem kinds_of_mem_marks {c : Char} (h : c ∈ marks) :
    Text.isBlank c = false ∧ Text.isDigit c = false ∧ isNameStart c = false :=
  kinds_of_mem_punctuation (List.mem_append_left _ h)

/-- Of the marks, only the sign for less is a symbol on its own. -/
theorem ofChar?_of_mem_marks {c : Char} (h : c ∈ marks) (hless : c ≠ '<') :
    Symbol.ofChar? c = none := by
  simp only [marks, List.mem_cons, List.not_mem_nil, or_false] at h
  rcases h with rfl | rfl | rfl | rfl | rfl | rfl
  all_goals first | rfl | exact absurd rfl hless

/-- What cannot stand in a name cannot begin one. -/
theorem isNameStart_of_isNameChar_eq_false {c : Char} (h : isNameChar c = false) :
    isNameStart c = false := by
  cases hc : isNameStart c with
  | false => rfl
  | true => exact (isNameChar_of_isNameStart hc).symm.trans h

/-- What cannot stand in a name is no digit. -/
theorem isDigit_of_isNameChar_eq_false {c : Char} (h : isNameChar c = false) :
    Text.isDigit c = false := by
  cases hc : Text.isDigit c with
  | false => rfl
  | true => exact (kinds_of_isDigit hc).1.symm.trans h

/-! ## Words, numbers and colours -/

/-- A character without a mark is read by its kind. -/
theorem first_of_not_mark {c : Char} (h : c ∉ marks) (cs : List Char) :
    first c cs =
      if Text.isBlank c then .ok (gap (c :: cs.takeWhile Text.isBlank), cs.dropWhile Text.isBlank)
      else if Text.isDigit c then .ok (number c cs)
      else if isNameStart c then .ok (identifier [c] cs)
      else match Symbol.ofChar? c with
        | some s => .ok (⟨[c], some (.symbol s)⟩, cs)
        | none => .error (.unexpectedCharacter c) := by
  simp only [marks, List.mem_cons, List.not_mem_nil, or_false, not_or] at h
  obtain ⟨hslash, hless, hsingle, hdouble, hgrave, hsharp⟩ := h
  unfold first
  split
  · exact absurd rfl hslash
  · exact absurd rfl hslash
  · exact absurd rfl hless
  · exact absurd rfl hsingle
  · exact absurd rfl hsingle
  · exact absurd rfl hdouble
  · exact absurd rfl hgrave
  · exact absurd rfl hsharp
  · rfl

/-- A token with the characters it is written with. -/
def ofToken (t : Token) (text : List Char) : Lexeme := ⟨text, some t⟩

variable {cs rest : List Char}

/-- Characters that pass a test are split off in front of one that does not. -/
theorem takeWhile_append_of_all {p : Char → Bool} (h : ∀ c ∈ cs, p c = true)
    (hr : ∀ c ∈ rest.head?, p c = false) :
    (cs ++ rest).takeWhile p = cs ∧ (cs ++ rest).dropWhile p = rest := by
  rw [Text.takeWhile_append_of_head hr, Text.dropWhile_append_of_head hr,
    List.takeWhile_eq_self_iff.2 h, List.dropWhile_eq_nil_iff.2 h]
  exact ⟨rfl, rfl⟩

/-- A name is read up to the first character that cannot stand in one. -/
theorem identifier_append {begun : List Char} (h : ∀ c ∈ cs, isNameChar c = true)
    (hr : ∀ c ∈ rest.head?, isNameChar c = false) :
    identifier begun (cs ++ rest) =
      (ofToken (.identifier (String.ofList (begun ++ cs))) (begun ++ cs), rest) := by
  obtain ⟨htake, hdrop⟩ := takeWhile_append_of_all h hr
  rw [identifier, htake, hdrop]
  rfl

/-- A character that begins a word or a number has no mark. -/
theorem not_mem_marks {c : Char} (h : Text.isDigit c = true ∨ isNameStart c = true) :
    c ∉ marks := by
  intro hm
  rcases h with hc | hc
  · rw [(kinds_of_mem_marks hm).2.1] at hc; contradiction
  · rw [(kinds_of_mem_marks hm).2.2] at hc; contradiction

/-- A digit begins a number. -/
theorem first_of_isDigit {c : Char} (h : Text.isDigit c = true) (cs : List Char) :
    first c cs = .ok (number c cs) := by
  have hblank : Text.isBlank c ≠ true := fun hb => by
    rw [isDigit_of_isNameChar_eq_false (kinds_of_isBlank hb).1] at h; contradiction
  rw [first_of_not_mark (not_mem_marks (.inl h)), if_neg hblank, if_pos h]

/-- A letter or a low line begins a name. -/
theorem first_of_isNameStart {c : Char} (h : isNameStart c = true) (cs : List Char) :
    first c cs = .ok (identifier [c] cs) := by
  have hblank : Text.isBlank c ≠ true := fun hb => by
    rw [isNameStart_of_isNameChar_eq_false (kinds_of_isBlank hb).1] at h; contradiction
  have hdigit : Text.isDigit c ≠ true := fun hd => by
    rw [(kinds_of_isDigit hd).2] at h; contradiction
  rw [first_of_not_mark (not_mem_marks (.inr h)), if_neg hblank, if_neg hdigit, if_pos h]

/-- What spells an identifier is read up to a character that is no part of a name. -/
theorem first_of_isIdentifier (hr : ∀ c ∈ rest.head?, isNameChar c = false) {text : List Char}
    (h : IsIdentifier text) : ∃ c cs, text = c :: cs ∧
      first c (cs ++ rest) = .ok (ofToken (.identifier (String.ofList text)) text, rest) := by
  obtain ⟨digits, c, cs, rfl, hdigits, hc, hcs⟩ := h
  cases digits with
  | nil =>
    refine ⟨c, cs, rfl, ?_⟩
    rw [first_of_isNameStart hc, identifier_append hcs hr]
    rfl
  | cons d digits =>
    refine ⟨d, digits ++ c :: cs, rfl, ?_⟩
    have hdigit : Text.isDigit c = false := by
      cases hd : Text.isDigit c with
      | false => rfl
      | true => exact hc.symm.trans (kinds_of_isDigit hd).2
    have hdot : c ≠ '.' := by
      rintro rfl
      rw [(kinds_of_mem_punctuation (by decide)).2.2] at hc
      contradiction
    have hall : ∀ e ∈ digits, Text.isDigit e = true :=
      fun e he => hdigits e (List.mem_cons_of_mem d he)
    have hstop : ∀ e ∈ (c :: (cs ++ rest)).head?, Text.isDigit e = false := by simpa using hdigit
    obtain ⟨htake, hdrop⟩ := takeWhile_append_of_all hall hstop
    have hname : ∀ e ∈ c :: cs, isNameChar e = true := by
      intro e he
      rcases List.mem_cons.1 he with rfl | he
      · exact isNameChar_of_isNameStart hc
      · exact hcs e he
    rw [first_of_isDigit (hdigits d List.mem_cons_self), List.append_assoc, List.cons_append, number,
      htake, hdrop]
    split
    · rename_i heq
      exact absurd (List.cons.inj heq).1 hdot
    · contradiction
    · rename_i heq
      cases heq
      rw [if_pos hc, ← List.cons_append, identifier_append hname hr]

/-- A number with a point is read up to a character that is no digit. -/
theorem first_of_fraction {d : Char} {digits fraction : List Char}
    (hwhole : ∀ e ∈ d :: digits, Text.isDigit e = true)
    (hfraction : ∀ e ∈ fraction, Text.isDigit e = true)
    (hr : ∀ c ∈ rest.head?, Text.isDigit c = false) :
    first d (digits ++ '.' :: (fraction ++ rest)) =
      .ok (ofToken (.number (String.ofList (d :: digits ++ '.' :: fraction)))
        (d :: digits ++ '.' :: fraction), rest) := by
  have hdigits : ∀ e ∈ digits, Text.isDigit e = true :=
    fun e he => hwhole e (List.mem_cons_of_mem d he)
  have hpoint : ∀ c ∈ ('.' :: (fraction ++ rest)).head?, Text.isDigit c = false := by
    rintro c ⟨⟩
    rfl
  obtain ⟨htake, hdrop⟩ := takeWhile_append_of_all hdigits hpoint
  obtain ⟨htake', hdrop'⟩ := takeWhile_append_of_all hfraction hr
  rw [first_of_isDigit (hwhole d List.mem_cons_self), number, htake, hdrop]
  simp only [htake', hdrop']
  rfl

/-- What spells a number is read up to a character that is no part of a name, and no point. -/
theorem first_of_isNumber (hr : ∀ c ∈ rest.head?, isNameChar c = false ∧ c ≠ '.')
    {text : List Char} (h : IsNumber text) : ∃ c cs, text = c :: cs ∧
      first c (cs ++ rest) = .ok (ofToken (.number (String.ofList text)) text, rest) := by
  obtain ⟨whole, hne, hwhole, htext⟩ := h
  have hstop : ∀ c ∈ rest.head?, Text.isDigit c = false := by
    intro c hc
    exact isDigit_of_isNameChar_eq_false (hr c hc).1
  cases whole with
  | nil => exact absurd rfl hne
  | cons d digits =>
    have hd := hwhole d List.mem_cons_self
    have hdigits : ∀ e ∈ digits, Text.isDigit e = true :=
      fun e he => hwhole e (List.mem_cons_of_mem d he)
    rcases htext with rfl | ⟨fraction, rfl, hfraction⟩
    · refine ⟨d, digits, rfl, ?_⟩
      obtain ⟨htake, hdrop⟩ := takeWhile_append_of_all hdigits hstop
      rw [first_of_isDigit hd, number, htake, hdrop]
      split
      · exact absurd rfl (hr '.' rfl).2
      · rfl
      · rename_i e _ _
        rw [isNameStart_of_isNameChar_eq_false (hr e rfl).1]
        rfl
    · refine ⟨d, digits ++ '.' :: fraction, rfl, ?_⟩
      rw [List.append_assoc, List.cons_append]
      exact first_of_fraction hwhole hfraction hstop

/-- A colour is read as one, up to the first character that is no digit of it. -/
theorem first_of_isColor (hr : ∀ c ∈ rest.head?, Text.isHexDigit c = false) {text : List Char}
    (h : IsColor text) : ∃ c cs, text = c :: cs ∧
      first c (cs ++ rest) = .ok (ofToken (.color (String.ofList text)) text, rest) := by
  obtain ⟨digits, rfl, hne, hdigits⟩ := h
  refine ⟨'#', digits, rfl, ?_⟩
  obtain ⟨htake, hdrop⟩ := takeWhile_append_of_all hdigits hr
  cases digits with
  | nil => exact absurd rfl hne
  | cons d digits =>
    rw [List.cons_append, first]
    rw [if_pos (hdigits d List.mem_cons_self), ← List.cons_append, color, htake, hdrop]
    rfl

/-! ## Quoted text and symbols -/

open Token.Quotes (Body TripleBody)

/-- A text between quotes is read as the text that its body spells. -/
theorem between_of_body {quote : Char} {make : String → Token} {body : List Char} {text : String}
    (hq : quote ≠ '\\') (h : Body quote body text.toList) (rest : List Char) :
    between quote make (body ++ quote :: rest) =
      .ok (ofToken (make text) (quote :: body ++ [quote]), rest) := by
  rw [between, Token.Quotes.cut_of_body hq h]
  simp only [Token.Quotes.unescape_of_body h, String.ofList_toList]
  rfl

/-- Behind an empty text another quote would open a text between three quotes. -/
theorem first_of_string {body : List Char} {text : String} (h : Body '\'' body text.toList)
    (hr : ∀ c ∈ rest.head?, text ≠ "" ∨ c ≠ '\'') :
    first '\'' (body ++ '\'' :: rest) =
      .ok (ofToken (.string text) ('\'' :: body ++ ['\'']), rest) := by
  have hnot : ∀ after, body ++ '\'' :: rest ≠ '\'' :: '\'' :: after := by
    intro after heq
    cases body with
    | nil =>
      cases heq
      have hempty : text = "" := String.toList_eq_nil_iff.1 (Token.Quotes.unescape_of_body h).symm
      rcases hr '\'' rfl with hne | hne
      · exact hne hempty
      · exact hne rfl
    | cons c cs =>
      exact Token.Quotes.ne_quote_of_body (by decide) h c rfl (List.cons.inj heq).1
  rw [first]
  · exact between_of_body (by decide) h rest
  · exact hnot

/-- A text between three quotes is read as the text that its body spells. -/
theorem first_of_triple {body : List Char} {text : String} (h : TripleBody body text.toList) :
    first '\'' ('\'' :: '\'' :: body ++ '\'' :: '\'' :: '\'' :: rest) =
      .ok (ofToken (.string text) ('\'' :: '\'' :: '\'' :: body ++ ['\'', '\'', '\'']), rest) := by
  obtain ⟨hcut, htext⟩ := Token.Quotes.cutTriple_of_tripleBody h rest
  rw [List.cons_append, List.cons_append, first, betweenTriple, hcut]
  simp only [htext, String.ofList_toList]
  rfl

/-- A symbol that is one character is read by its kind. -/
theorem first_of_ofChar? {c : Char} {symbol : Symbol} (h : Symbol.ofChar? c = some symbol)
    (hm : c ∉ marks) (hp : c ∈ punctuation) (cs : List Char) :
    first c cs = .ok (ofToken (.symbol symbol) [c], cs) := by
  obtain ⟨hblank, hdigit, hname⟩ := kinds_of_mem_punctuation hp
  rw [first_of_not_mark hm, hblank, hdigit, hname, h]
  rfl

/-- A sign is read as `<` unless `>` is behind it. -/
theorem first_of_less (hr : ∀ c ∈ rest.head?, c ≠ '>') :
    first '<' rest = .ok (ofToken (.symbol .less) ['<'], rest) := by
  have hne : ∀ after, rest ≠ '>' :: after := by
    rintro after rfl
    exact hr '>' rfl rfl
  have hmark : '<' ∈ marks := by decide
  obtain ⟨hblank, hdigit, hname⟩ := kinds_of_mem_marks hmark
  rw [first, hblank, hdigit, hname]
  · rfl
  all_goals simp_all

/-- A symbol is read from its characters, where no longer one begins. -/
theorem first_of_symbol (symbol : Symbol)
    (hr : ∀ c ∈ rest.head?, symbol = .less → c ≠ '>') : ∃ c cs, symbol.chars = c :: cs ∧
      first c (cs ++ rest) = .ok (ofToken (.symbol symbol) symbol.chars, rest) := by
  cases symbol with
  | lessGreater => exact ⟨'<', ['>'], rfl, rfl⟩
  | less => exact ⟨'<', [], rfl, first_of_less fun c hc => hr c hc rfl⟩
  | _ => exact ⟨_, [], rfl, first_of_ofChar? rfl (by decide) (by decide) _⟩

end Lexeme

/-! ## Ends of tokens -/

namespace Token

/-- Whether a character right behind a token is not read as a part of it. -/
def isEndedBy (c : Char) : Token → Bool
  | identifier _ => !Lexeme.isNameChar c
  | number _ => !Lexeme.isNameChar c && c ≠ '.'
  | color _ => !Text.isHexDigit c
  | string text => text ≠ "" || c ≠ '\''
  | symbol .less => c ≠ '>'
  | _ => true

/-- A blank ends every token. -/
theorem isEndedBy_of_isBlank {c : Char} (h : Text.isBlank c = true) (t : Token) :
    t.isEndedBy c = true := by
  obtain ⟨hname, hhex⟩ := Lexeme.kinds_of_isBlank h
  have hne {d : Char} (hd : d ∈ Lexeme.punctuation) : c ≠ d := by
    rintro rfl
    rw [(Lexeme.kinds_of_mem_punctuation hd).1] at h
    contradiction
  cases t with
  | identifier => simp [isEndedBy, hname]
  | number =>
    have hdot : c ≠ '.' := hne (by decide)
    simp [isEndedBy, hname, hdot]
  | color => simp [isEndedBy, hhex]
  | string =>
    have hquote : c ≠ '\'' := hne (by decide)
    simp [isEndedBy, hquote]
  | symbol s =>
    cases s with
    | less =>
      have hgreater : c ≠ '>' := hne (by decide)
      simp [isEndedBy, hgreater]
    | _ => rfl
  | quoted | expression => rfl

end Token

namespace Lexeme

variable {rest : List Char}

/-- What spells a token is read as the token, in front of what ends it. -/
theorem first_of_spells {t : Token} {cs : List Char} (h : Spells t cs)
    (hr : ∀ c ∈ rest.head?, t.isEndedBy c = true) :
    ∃ c ds, cs = c :: ds ∧ first c (ds ++ rest) = .ok (ofToken t cs, rest) := by
  cases h with
  | symbol symbol =>
    refine first_of_symbol symbol ?_
    rintro c hc rfl
    simpa [Token.isEndedBy] using hr c hc
  | @identifier text h =>
    have hname : ∀ c ∈ rest.head?, isNameChar c = false := by simpa [Token.isEndedBy] using hr
    simpa using first_of_isIdentifier hname h
  | @number text h =>
    have hname : ∀ c ∈ rest.head?, isNameChar c = false ∧ c ≠ '.' := by
      simpa [Token.isEndedBy] using hr
    simpa using first_of_isNumber hname h
  | @color text h =>
    have hhex : ∀ c ∈ rest.head?, Text.isHexDigit c = false := by simpa [Token.isEndedBy] using hr
    simpa using first_of_isColor hhex h
  | @string text body h =>
    refine ⟨'\'', body ++ ['\''], rfl, ?_⟩
    rw [List.append_assoc]
    exact first_of_string h fun c hc => by simpa [Token.isEndedBy] using hr c hc
  | @triple text body h =>
    refine ⟨'\'', '\'' :: '\'' :: body ++ ['\'', '\'', '\''], rfl, ?_⟩
    rw [List.append_assoc]
    exact first_of_triple h
  | @quoted text body h =>
    refine ⟨'"', body ++ ['"'], rfl, ?_⟩
    rw [List.append_assoc]
    exact between_of_body (by decide) h rest
  | @expression text body h =>
    refine ⟨'\x60', body ++ ['\x60'], rfl, ?_⟩
    rw [List.append_assoc]
    exact between_of_body (by decide) h rest

/-! ## Texts -/

/-- Behind its first lexeme a text is read as what is left is read. -/
theorem all_of_first {c : Char} {cs : List Char} {l : Lexeme} (h : first c cs = .ok (l, rest)) :
    all (c :: cs) = (l :: (all rest).1, (all rest).2) := by
  rw [all]
  split
  · rename_i heq
    rw [h] at heq
    contradiction
  · rename_i heq
    rw [h] at heq
    cases heq
    rfl

/-- From a position on, the text is read without a fault as the tokens. -/
def Reads (p : Position) (cs : List Char) (ts : List Located) : Prop :=
  (all cs).2 = none ∧ located p (all cs).1 = ts

variable {p : Position} {ts : List Located}

/-- Of an empty text nothing is read. -/
theorem reads_nil (p : Position) : Reads p [] [] := by
  rw [Reads, all]
  exact ⟨rfl, rfl⟩

/-- What spells a token, in front of what ends it, is read as the token and what the rest is read
as. -/
theorem reads_token {t : Token} {cs : List Char} (h : Spells t cs)
    (hend : ∀ c ∈ rest.head?, t.isEndedBy c = true) (hr : Reads (p.after cs) rest ts) :
    Reads p (cs ++ rest) (⟨t, p⟩ :: ts) := by
  obtain ⟨c, ds, rfl, hfirst⟩ := first_of_spells h hend
  obtain ⟨hfault, htokens⟩ := hr
  rw [List.cons_append, Reads, all_of_first hfirst]
  exact ⟨hfault, by rw [← htokens]; rfl⟩

/-- A blank begins a gap, up to the first character that is no blank. -/
theorem first_of_isBlank {c : Char} (h : Text.isBlank c = true) (cs : List Char) :
    first c cs =
      .ok (gap (c :: cs.takeWhile Text.isBlank), cs.dropWhile Text.isBlank) := by
  have hm : c ∉ marks := by
    intro hm
    rw [(kinds_of_mem_marks hm).1] at h
    contradiction
  rw [first_of_not_mark hm, if_pos h]

/-- A blank in front adds nothing to what is read: it is a gap, or part of the gap behind it. -/
theorem reads_blank {c : Char} (h : Text.isBlank c = true) {cs : List Char}
    (hr : Reads (p.next c) cs ts) : Reads p (c :: cs) ts := by
  obtain ⟨hfault, htokens⟩ := hr
  rw [Reads, all_of_first (first_of_isBlank h cs)]
  cases cs with
  | nil =>
    rw [List.takeWhile_nil, List.dropWhile_nil]
    exact ⟨hfault, htokens⟩
  | cons d cs =>
    cases hd : Text.isBlank d with
    | false =>
      rw [List.takeWhile_cons_of_neg (by simp [hd]), List.dropWhile_cons_of_neg (by simp [hd])]
      exact ⟨hfault, htokens⟩
    | true =>
      rw [all_of_first (first_of_isBlank hd cs)] at hfault htokens
      rw [List.takeWhile_cons_of_pos hd, List.dropWhile_cons_of_pos hd]
      exact ⟨hfault, htokens⟩

/-- Blanks leave no token. -/
theorem reads_blanks {gap cs : List Char} (h : ∀ c ∈ gap, Text.isBlank c = true)
    (hr : Reads (p.after gap) cs ts) : Reads p (gap ++ cs) ts := by
  induction gap generalizing p with
  | nil => exact hr
  | cons c gap ih =>
    exact reads_blank (h c List.mem_cons_self) (ih (fun d hd => h d (List.mem_cons_of_mem c hd)) hr)

end Lexeme

/-- What is read of a text from its start on are its tokens. -/
theorem Lexing.of_of_reads {source : String} {ts : List Located}
    (h : Lexeme.Reads .start source.toList ts) :
    (Lexing.of source).tokens = ts ∧ (Lexing.of source).fault = none :=
  ⟨h.2, h.1⟩

/-! ## Texts without positions -/

namespace Lexeme

variable {c : Char} {cs rest : List Char} {l : Lexeme} {t : Token} {tokens : List Token}

/-- A text is read without a fault as tokens, wherever these stand. -/
def IsReadAs (cs : List Char) (tokens : List Token) : Prop :=
  (all cs).2 = none ∧ (all cs).1.filterMap (·.token) = tokens

/-- Positions change nothing about the tokens that are read. -/
theorem map_token_located (p : Position) (ls : List Lexeme) :
    (located p ls).map (·.token) = ls.filterMap (·.token) := by
  induction ls generalizing p with
  | nil => rfl
  | cons l ls ih =>
    rw [located, List.map_append, ih, List.filterMap_cons]
    cases l.token <;> rfl

/-- Of an empty text no tokens are read. -/
theorem isReadAs_nil : IsReadAs [] tokens ↔ tokens = [] := by
  rw [IsReadAs, all]
  exact ⟨fun h => h.2.symm, fun h => ⟨rfl, h.symm⟩⟩

/-- A text that begins with a token is read as this and what the rest is read as. -/
theorem isReadAs_of_first (h : first c cs = .ok (l, rest)) (ht : l.token = some t) :
    IsReadAs (c :: cs) tokens ↔ ∃ more, tokens = t :: more ∧ IsReadAs rest more := by
  rw [IsReadAs, all_of_first h, List.filterMap_cons_some ht]
  constructor
  · rintro ⟨hfault, rfl⟩
    exact ⟨_, rfl, hfault, rfl⟩
  · rintro ⟨_, rfl, hfault, rfl⟩
    exact ⟨hfault, rfl⟩

/-- What spells a token, in front of what ends it, is read as the token and what the rest is read
as. -/
theorem isReadAs_append (hs : Spells t cs) (hend : ∀ c ∈ rest.head?, t.isEndedBy c = true) :
    IsReadAs (cs ++ rest) tokens ↔ ∃ more, tokens = t :: more ∧ IsReadAs rest more := by
  obtain ⟨c, ds, rfl, hfirst⟩ := first_of_spells hs hend
  exact isReadAs_of_first hfirst rfl

/-- What spells a token is read as it. -/
theorem isReadAs_of_spells (hs : Spells t cs) : IsReadAs cs tokens ↔ tokens = [t] := by
  have hend : ∀ c ∈ ([] : List Char).head?, t.isEndedBy c = true := by simp
  rw [← List.append_nil cs, isReadAs_append hs hend]
  simp [isReadAs_nil]

/-- What begins with a fault is not read as any tokens. -/
theorem not_isReadAs_of_error {fault : Fault} (h : first c cs = .error fault) :
    ¬ IsReadAs (c :: cs) tokens := by
  rw [IsReadAs, all]
  split
  · simp
  · rename_i heq
    rw [h] at heq
    contradiction

/-- A blank in front of a text leaves no token. -/
theorem isReadAs_blank (h : Text.isBlank c = true) (cs : List Char) :
    IsReadAs (c :: cs) tokens ↔ IsReadAs cs tokens := by
  rw [IsReadAs, all_of_first (first_of_isBlank h cs)]
  cases cs with
  | nil => rfl
  | cons d cs =>
    cases hd : Text.isBlank d with
    | false =>
      rw [List.dropWhile_cons_of_neg (by simp [hd])]
      rfl
    | true =>
      rw [List.dropWhile_cons_of_pos hd, IsReadAs, all_of_first (first_of_isBlank hd cs)]
      rfl

end Lexeme

/-- A text is read as its tokens if the lexer meets no fault, and only then. -/
theorem Lexing.isReadAs_iff {source : String} {tokens : List Token} :
    ((Lexing.of source).tokens.map (·.token) = tokens ∧ (Lexing.of source).fault = none) ↔
      Lexeme.IsReadAs source.toList tokens := by
  rw [Lexeme.IsReadAs, ← Lexeme.map_token_located .start, and_comm]
  rfl

end SchemaDiagram
