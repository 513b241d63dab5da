import SchemaDiagram.Proofs.Text.Blank
import SchemaDiagram.Token.Lexeme

/-!
# SchemaDiagram.Proofs.Token.Spelling

How the pieces of a source text are written, said without the functions that read them.

1. `Body` and `TripleBody` relate what stands between quotes to the text it stands for.
2. `Spells t cs` says that a token may be written with the characters `cs`.
3. `Gap cs after` says that `cs` are blanks and comments, before the text `after`.

Whatever `Lexeme.first` takes off a text is one of the two: `spells_of_first` for the pieces that
are tokens, `gap_append_of_first` for those that are not.
-/

namespace SchemaDiagram

/-! ## Words, numbers and colours -/

/-- An identifier: a letter or a low line, with digits before it or not, and then letters, digits
and low lines. -/
def IsIdentifier (cs : List Char) : Prop :=
  ∃ digits c rest, cs = digits ++ c :: rest ∧ (∀ d ∈ digits, Text.isDigit d = true) ∧
    Lexeme.isNameStart c = true ∧ ∀ d ∈ rest, Lexeme.isNameChar d = true

/-- A number: digits, and behind them a point and more digits or none of it. -/
def IsNumber (cs : List Char) : Prop :=
  ∃ whole, whole ≠ [] ∧ (∀ d ∈ whole, Text.isDigit d = true) ∧
    (cs = whole ∨ ∃ fraction, cs = whole ++ '.' :: fraction ∧ ∀ d ∈ fraction, Text.isDigit d = true)

/-- A colour: a number sign and at least one digit in base sixteen. -/
def IsColor (cs : List Char) : Prop :=
  ∃ digits, cs = '#' :: digits ∧ digits ≠ [] ∧ ∀ d ∈ digits, Text.isHexDigit d = true

/-! ## Quoted text -/

namespace Token.Quotes

/-- What stands between two quotes of one kind, and the text it stands for.  A backslash goes with
the character behind it; a line feed stands on its own only between grave accents. -/
inductive Body (quote : Char) : List Char → List Char → Prop
  | nil : Body quote [] []
  | plain {c : Char} {cs ds : List Char} : c ≠ quote → c ≠ '\\' → (c = '\n' → quote = '\x60') →
      Body quote cs ds → Body quote (c :: cs) (c :: ds)
  | lineFeed {cs ds : List Char} : Body quote cs ds → Body quote ('\\' :: 'n' :: cs) ('\n' :: ds)
  | tab {cs ds : List Char} : Body quote cs ds → Body quote ('\\' :: 't' :: cs) ('\t' :: ds)
  | carriageReturn {cs ds : List Char} :
      Body quote cs ds → Body quote ('\\' :: 'r' :: cs) ('\r' :: ds)
  | escaped {c : Char} {cs ds : List Char} : c ∉ ['n', 't', 'r'] →
      Body quote cs ds → Body quote ('\\' :: c :: cs) (c :: ds)

/-- What stands between triple quotes, and the text it stands for.  Behind a backslash every
character is itself, and the first three quotes that follow each other close the text. -/
inductive TripleBody : List Char → List Char → Prop
  | nil : TripleBody [] []
  | plain {c : Char} {cs ds : List Char} : c ≠ '\\' →
      ¬ ['\'', '\'', '\''] <+: c :: cs ++ ['\'', '\'', '\''] →
      TripleBody cs ds → TripleBody (c :: cs) (c :: ds)
  | escaped {c : Char} {cs ds : List Char} :
      TripleBody cs ds → TripleBody ('\\' :: c :: cs) (c :: ds)

/-- A backslash and a character stand for the character's escape value. -/
theorem Body.escapeValue {quote : Char} {cs ds : List Char} (c : Char) (h : Body quote cs ds) :
    Body quote ('\\' :: c :: cs) (escapeValue c :: ds) := by
  unfold Quotes.escapeValue
  split
  · exact h.lineFeed
  · exact h.tab
  · exact h.carriageReturn
  · rename_i hn ht hr
    refine h.escaped ?_
    simp only [List.mem_cons, List.not_mem_nil, or_false, not_or]
    exact ⟨hn, ht, hr⟩

/-- What `cut` finds before the closing quote is a body, and stands for what `unescape` makes of
it. -/
theorem body_of_cut {quote : Char} {cs body rest : List Char}
    (h : cut quote cs = some (body, rest)) : Body quote body (unescape body) := by
  fun_induction cut quote cs generalizing body rest with
  | case1 => contradiction
  | case2 c cs ih =>
    obtain ⟨⟨b, r⟩, hb, he⟩ := Option.map_eq_some_iff.1 h
    cases he
    rw [unescape]
    exact (ih hb).escapeValue c
  | case3 => cases h; exact .nil
  | case4 => contradiction
  | case5 c cs hback hquote hline ih =>
    obtain ⟨⟨b, r⟩, hb, he⟩ := Option.map_eq_some_iff.1 h
    cases he
    -- a lone backslash would be the last character, and no quote would follow
    have hc : c ≠ '\\' := by
      rintro rfl
      cases cs with
      | nil => simp [cut] at hb
      | cons d cs => exact hback d cs rfl rfl
    have hu : unescape (c :: b) = c :: unescape b := by
      rw [unescape]
      exact fun _ _ he => absurd he hc
    rw [hu]
    exact .plain hquote hc (fun hn => Classical.not_not.1 fun hq => hline ⟨hn, hq⟩) (ih hb)

/-- What `cutTriple` finds before the three closing quotes is a body, and stands for what
`unescapeTriple` makes of it. -/
theorem tripleBody_of_cutTriple {cs body rest : List Char}
    (h : cutTriple cs = some (body, rest)) : TripleBody body (unescapeTriple body) := by
  fun_induction cutTriple cs generalizing body rest with
  | case1 => contradiction
  | case2 c cs ih =>
    obtain ⟨⟨b, r⟩, hb, he⟩ := Option.map_eq_some_iff.1 h
    cases he
    rw [unescapeTriple]
    exact (ih hb).escaped
  | case3 => cases h; exact .nil
  | case4 c cs hback hopen ih =>
    obtain ⟨⟨b, r⟩, hb, ⟨⟩⟩ := Option.map_eq_some_iff.1 h
    have hc : c ≠ '\\' := by
      rintro rfl
      cases cs with
      | nil => simp [cutTriple] at hb
      | cons d cs => exact hback d cs rfl rfl
    have hu : unescapeTriple (c :: b) = c :: unescapeTriple b := by
      rw [unescapeTriple]
      exact fun _ _ he => absurd he hc
    rw [hu]
    refine .plain hc ?_ (ih hb)
    rintro ⟨t, ht⟩
    have hcs : c :: cs = '\'' :: '\'' :: '\'' :: (t ++ rest) := by
      rw [← append_of_cutTriple hb]
      simpa using congrArg (· ++ rest) ht.symm
    cases hcs
    exact hopen _ rfl rfl

end Token.Quotes

/-! ## Tokens -/

open Token.Quotes (Body TripleBody)

/-- The ways to write a token. -/
inductive Spells : Token → List Char → Prop
  | symbol (s : Symbol) : Spells (.symbol s) s.chars
  | identifier {text : String} : IsIdentifier text.toList → Spells (.identifier text) text.toList
  | number {text : String} : IsNumber text.toList → Spells (.number text) text.toList
  | color {text : String} : IsColor text.toList → Spells (.color text) text.toList
  | string {text : String} {body : List Char} : Body '\'' body text.toList →
      Spells (.string text) ('\'' :: body ++ ['\''])
  | triple {text : String} {body : List Char} : TripleBody body text.toList →
      Spells (.string text) ('\'' :: '\'' :: '\'' :: body ++ ['\'', '\'', '\''])
  | quoted {text : String} {body : List Char} : Body '"' body text.toList →
      Spells (.quoted text) ('"' :: body ++ ['"'])
  | expression {text : String} {body : List Char} : Body '\x60' body text.toList →
      Spells (.expression text) ('\x60' :: body ++ ['\x60'])

/-- An identifier is written as its characters. -/
theorem spells_identifier {cs : List Char} (h : IsIdentifier cs) :
    Spells (.identifier (String.ofList cs)) cs := by
  rw [← String.toList_ofList (l := cs)] at h
  have := Spells.identifier h
  rwa [String.toList_ofList] at this

/-- A number is written as its characters. -/
theorem spells_number {cs : List Char} (h : IsNumber cs) :
    Spells (.number (String.ofList cs)) cs := by
  rw [← String.toList_ofList (l := cs)] at h
  have := Spells.number h
  rwa [String.toList_ofList] at this

/-- A colour is written as its characters. -/
theorem spells_color {cs : List Char} (h : IsColor cs) :
    Spells (.color (String.ofList cs)) cs := by
  rw [← String.toList_ofList (l := cs)] at h
  have := Spells.color h
  rwa [String.toList_ofList] at this

/-! ## Gaps -/

/-- Blanks and comments, before the text `after`.  A comment that begins with two slashes runs to
the end of its line, and one that begins with a slash and a star to the first star and slash. -/
inductive Gap (after : List Char) : List Char → Prop
  | nil : Gap after []
  | blank {c : Char} {cs : List Char} : Text.isBlank c = true → Gap after cs → Gap after (c :: cs)
  | line {body cs : List Char} : '\n' ∉ body → (∀ c ∈ (cs ++ after).head?, c = '\n') →
      Gap after cs → Gap after ('/' :: '/' :: body ++ cs)
  | block {body cs : List Char} : ¬ ['*', '/'] <:+: body →
      Gap after cs → Gap after ('/' :: '*' :: body ++ '*' :: '/' :: cs)

/-- Blanks in front of a gap belong to it. -/
theorem Gap.append_blanks {after cs blanks : List Char} (h : Gap after cs)
    (hb : ∀ c ∈ blanks, Text.isBlank c = true) : Gap after (blanks ++ cs) := by
  induction blanks with
  | nil => exact h
  | cons c blanks ih =>
    exact .blank (hb c List.mem_cons_self) (ih fun d hd => hb d (List.mem_cons_of_mem c hd))

/-! ## The first piece of a text -/

namespace Lexeme

/-- A letter or low line with all that can go on from it is an identifier. -/
theorem isIdentifier_of_begun {c : Char} (hc : isNameStart c = true) (cs : List Char) :
    IsIdentifier (c :: cs.takeWhile isNameChar) :=
  ⟨[], c, _, rfl, by simp, hc, fun _ => List.mem_takeWhile_imp⟩

/-- What begins a name may stand in one. -/
theorem isNameChar_of_isNameStart {c : Char} (hc : isNameStart c = true) :
    isNameChar c = true := by
  simp only [isNameStart, Bool.or_eq_true] at hc
  simp only [isNameChar, Text.isAlphanumeric, Bool.or_eq_true]
  exact hc.imp_left .inl

/-- The inside of a comment does not close it. -/
theorem not_infix_of_cutComment {cs body rest : List Char}
    (h : cutComment cs = some (body, rest)) : ¬ ['*', '/'] <:+: body := by
  fun_induction cutComment cs generalizing body rest with
  | case1 => contradiction
  | case2 => cases h; simp
  | case3 c cs hclose ih =>
    obtain ⟨⟨b, r⟩, hb, ⟨⟩⟩ := Option.map_eq_some_iff.1 h
    rw [List.infix_cons_iff]
    rintro (⟨t, ht⟩ | hin)
    · have hcs : c :: cs = '*' :: '/' :: (t ++ '*' :: '/' :: rest) := by
        rw [← append_of_cutComment hb]
        simpa using congrArg (· ++ '*' :: '/' :: rest) ht.symm
      cases hcs
      exact hclose _ rfl rfl
    · exact ih hb hin

/-- A token between quotes is the text for which its body stands. -/
theorem spells_of_between {quote : Char} {make : String → Token} {cs rest : List Char}
    {l : Lexeme} {t : Token} (h : between quote make cs = .ok (l, rest)) (ht : l.token = some t) :
    ∃ text body, t = make text ∧ Body quote body text.toList ∧ l.text = quote :: body ++ [quote] := by
  unfold between at h
  split at h
  · contradiction
  · rename_i body r hcut
    cases h
    cases ht
    refine ⟨_, body, rfl, ?_, rfl⟩
    rw [String.toList_ofList]
    exact Token.Quotes.body_of_cut hcut

/-- A string between triple quotes is the text for which its body stands. -/
theorem spells_of_betweenTriple {cs rest : List Char} {l : Lexeme} {t : Token}
    (h : betweenTriple cs = .ok (l, rest)) (ht : l.token = some t) : Spells t l.text := by
  unfold betweenTriple at h
  split at h
  · contradiction
  · rename_i body r hcut
    cases h
    cases ht
    refine .triple ?_
    rw [String.toList_ofList]
    exact Token.Quotes.tripleBody_of_cutTriple hcut

/-- Digits, with what follows them, are a number or the beginning of an identifier. -/
theorem spells_of_number {c : Char} {cs : List Char} {t : Token} (hc : Text.isDigit c = true)
    (ht : (number c cs).1.token = some t) : Spells t (number c cs).1.text := by
  have hdigits : ∀ d ∈ c :: cs.takeWhile Text.isDigit, Text.isDigit d = true := by
    intro d hd
    rcases List.mem_cons.1 hd with rfl | hd
    · exact hc
    · exact List.mem_takeWhile_imp hd
  have hwhole : IsNumber (c :: cs.takeWhile Text.isDigit) :=
    ⟨_, List.cons_ne_nil _ _, hdigits, .inl rfl⟩
  unfold number at ht ⊢
  split at ht
  · cases ht
    exact spells_number ⟨_, List.cons_ne_nil _ _, hdigits,
      .inr ⟨_, rfl, fun _ => List.mem_takeWhile_imp⟩⟩
  · cases ht
    exact spells_number hwhole
  · rename_i d after _ _
    split at ht
    · rename_i hstart
      cases ht
      simp only [hstart, if_true]
      refine spells_identifier ⟨_, d, after.takeWhile isNameChar, ?_, hdigits, hstart,
        fun _ => List.mem_takeWhile_imp⟩
      rw [List.takeWhile_cons_of_pos (isNameChar_of_isNameStart hstart)]
    · rename_i hstart
      cases ht
      simp only [hstart]
      exact spells_number hwhole

/-- A piece that is a token is one of the ways to write it. -/
theorem spells_of_first {c : Char} {cs rest : List Char} {l : Lexeme} {t : Token}
    (h : first c cs = .ok (l, rest)) (ht : l.token = some t) : Spells t l.text := by
  unfold first at h
  split at h
  · cases h; cases ht
  · unfold blockComment at h
    split at h
    · contradiction
    · cases h; cases ht
  · cases h; cases ht; exact .symbol .lessGreater
  · exact spells_of_betweenTriple h ht
  · obtain ⟨text, body, rfl, hb, hl⟩ := spells_of_between h ht
    exact hl ▸ .string hb
  · obtain ⟨text, body, rfl, hb, hl⟩ := spells_of_between h ht
    exact hl ▸ .quoted hb
  · obtain ⟨text, body, rfl, hb, hl⟩ := spells_of_between h ht
    exact hl ▸ .expression hb
  · rename_i d after
    split at h
    · rename_i hd
      cases h
      cases ht
      refine spells_color ⟨_, rfl, ?_, fun _ => List.mem_takeWhile_imp⟩
      rw [List.takeWhile_cons_of_pos hd]
      exact List.cons_ne_nil _ _
    · contradiction
  · split at h
    · cases h; cases ht
    · split at h
      · rename_i hd
        have hl := congrArg Prod.fst (Except.ok.inj h)
        subst hl
        exact spells_of_number hd ht
      · split at h
        · rename_i hstart
          cases h
          cases ht
          exact spells_identifier (isIdentifier_of_begun hstart cs)
        · split at h
          · rename_i s hs
            cases h
            cases ht
            rw [← Symbol.chars_of_ofChar? hs]
            exact .symbol s
          · contradiction

/-- A piece that is no token goes with the gap that follows it. -/
theorem gap_append_of_first {c : Char} {cs rest : List Char} {l : Lexeme}
    (h : first c cs = .ok (l, rest)) (ht : l.token = none) {g after : List Char}
    (hr : rest = g ++ after) (hg : Gap after g) : Gap after (l.text ++ g) := by
  unfold first at h
  split at h
  · rename_i tail
    cases h
    show Gap after (('/' :: '/' :: tail).takeWhile (· != '\n') ++ g)
    have htake : ('/' :: '/' :: tail).takeWhile (· != '\n')
        = '/' :: '/' :: tail.takeWhile (· != '\n') := rfl
    rw [htake]
    refine .line (fun hn => ?_) (fun d hd => ?_) hg
    · simpa using List.mem_takeWhile_imp hn
    · rw [← hr] at hd
      simpa using Text.head?_dropWhile_eq _ _ d hd
  · unfold blockComment at h
    split at h
    · contradiction
    · rename_i body r hcut
      cases h
      have hb := Gap.block (not_infix_of_cutComment hcut) hg
      simpa [gap] using hb
  · cases h; cases ht
  · unfold betweenTriple at h; split at h <;> cases h; cases ht
  · unfold between at h; split at h <;> cases h; cases ht
  · unfold between at h; split at h <;> cases h; cases ht
  · unfold between at h; split at h <;> cases h; cases ht
  · split at h <;> cases h
    cases ht
  · split at h
    · rename_i hblank
      cases h
      refine hg.append_blanks fun d hd => ?_
      rcases List.mem_cons.1 hd with rfl | hd
      · exact hblank
      · exact List.mem_takeWhile_imp hd
    · split at h
      · have hl : (number c cs).1 = l := congrArg Prod.fst (Except.ok.inj h)
        rw [← hl] at ht
        unfold number at ht
        split at ht
        · cases ht
        · cases ht
        · split at ht <;> cases ht
      · split at h
        · cases h; cases ht
        · split at h <;> cases h
          cases ht

end Lexeme

end SchemaDiagram
