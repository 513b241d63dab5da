import Mathlib.Data.List.Chain
import SchemaDiagram.Proofs.Grammar.ArgumentText
import SchemaDiagram.Proofs.Token.Piece

/-!
# SchemaDiagram.Proofs.Grammar.Arguments

The arguments of a type, written as text and read again.

A space parts a word or a number from what ends with a letter or a digit before it.  Three kinds of
neighbours have nothing between them and run into each other (`Token.RunsInto`):

```
a_ b     a word that ends with a low line, and a word or a number
1. 5     a number that ends with a point, and a word or a number that begins with a digit
'' 'a'   an empty text, and a text
```

The text of arguments is read as these exactly if no two neighbours do
(`isReadAs_argumentsText_iff`).  Where they do, another token is read (`not_isReadAs_of_runsInto`),
except for three empty texts, which are read as one (`exists_of_isReadAs_empty`): then the tokens
fall short, and what is read behind does not make up for it (`isChain_of_isReadAs`).
-/

namespace SchemaDiagram

/-! ## Neighbours -/

/-- Whether an argument runs into the next. -/
def Token.RunsInto : Token → Token → Prop
  | identifier text, identifier _ | identifier text, number _ => text.toList.getLast? = some '_'
  | number text, identifier next | number text, number next =>
    text.toList.getLast? = some '.' ∧ ∃ c ∈ next.toList.head?, Text.isDigit c = true
  | string text, string _ => text = ""
  | _, _ => False

/-! ## Ends and beginnings of arguments -/

section

open Grammar.Argument (endsAlphanumeric)
open Lexeme

variable {cs more : List Char}

/-- A word stays a word when it goes on with characters of words. -/
theorem IsIdentifier.append (h : IsIdentifier cs) (hmore : ∀ c ∈ more, isNameChar c = true) :
    IsIdentifier (cs ++ more) := by
  obtain ⟨digits, c, rest, rfl, hdigits, hstart, hrest⟩ := h
  refine ⟨digits, c, rest ++ more, by simp, hdigits, hstart, fun d hd => ?_⟩
  rcases List.mem_append.1 hd with hd | hd
  · exact hrest d hd
  · exact hmore d hd

/-- A digit is a letter or a digit. -/
theorem isAlphanumeric_of_isDigit {c : Char} (h : Text.isDigit c = true) :
    Text.isAlphanumeric c = true :=
  Text.of_isDigit (by decide) h

/-- A word ends with a letter, a digit or a low line. -/
theorem IsIdentifier.endsAlphanumeric_or (h : IsIdentifier cs) :
    endsAlphanumeric cs = true ∨ cs.getLast? = some '_' := by
  have hlast := List.getLast?_eq_some_getLast (ne_nil_of_isIdentifier h)
  have hname := isNameChar_of_isIdentifier h _ (List.getLast_mem (ne_nil_of_isIdentifier h))
  rw [endsAlphanumeric, hlast]
  simpa [isNameChar] using hname

/-- A number that ends with a point has nothing behind it. -/
theorem IsNumber.exists_of_point (h : IsNumber cs) (hlast : cs.getLast? = some '.') :
    ∃ d digits, cs = d :: (digits ++ ['.']) ∧ ∀ e ∈ d :: digits, Text.isDigit e = true := by
  have hpoint {digits : List Char} (hdigits : ∀ e ∈ digits, Text.isDigit e = true) :
      digits.getLast? ≠ some '.' := fun hlast =>
    absurd (hdigits '.' (List.mem_of_getLast? hlast)) (by decide)
  obtain ⟨whole, hne, hwhole, rfl | ⟨fraction, rfl, hfraction⟩⟩ := h
  · exact absurd hlast (hpoint hwhole)
  · obtain ⟨d, digits, rfl⟩ := List.exists_cons_of_ne_nil hne
    rw [List.getLast?_append_of_ne_nil _ (List.cons_ne_nil _ _)] at hlast
    cases fraction with
    | nil => exact ⟨d, digits, rfl, hwhole⟩
    | cons e fraction =>
      rw [List.getLast?_cons_cons] at hlast
      exact absurd hlast (hpoint hfraction)

/-- A number ends with a digit or with a point. -/
theorem IsNumber.endsAlphanumeric_or (h : IsNumber cs) :
    endsAlphanumeric cs = true ∨ cs.getLast? = some '.' := by
  obtain ⟨whole, hne, hwhole, heq⟩ := h
  have hmem : ∀ c ∈ cs, Text.isDigit c = true ∨ c = '.' := by
    rcases heq with rfl | ⟨fraction, rfl, hfraction⟩
    · exact fun c hc => .inl (hwhole c hc)
    · intro c hc
      rw [List.mem_append, List.mem_cons] at hc
      rcases hc with hc | hc | hc
      · exact .inl (hwhole c hc)
      · exact .inr hc
      · exact .inl (hfraction c hc)
  have hcs : cs ≠ [] := by
    rcases heq with rfl | ⟨fraction, rfl, -⟩
    · exact hne
    · simp
  have hlast := List.getLast?_eq_some_getLast hcs
  rw [endsAlphanumeric, hlast]
  rcases hmem _ (List.getLast_mem hcs) with hdigit | hdot
  · exact .inl (by simpa using isAlphanumeric_of_isDigit hdigit)
  · exact .inr (by rw [hdot])

end

namespace Token

open Grammar.Argument (endsAlphanumeric)
open Lexeme

variable {t u : Token} {c : Char} {cs : List Char}

/-- A word or a number begins with a part of a name. -/
theorem exists_write_of_isWordOrNumber (h : u.IsWritable) (hword : u.isWordOrNumber = true) :
    ∃ c cs, u.write = c :: cs ∧ isNameChar c = true := by
  cases u with
  | identifier text =>
    obtain ⟨c, cs, hcs⟩ := List.exists_cons_of_ne_nil (ne_nil_of_isIdentifier h)
    exact ⟨c, cs, hcs, isNameChar_of_isIdentifier h c (hcs ▸ List.mem_cons_self)⟩
  | number text =>
    obtain ⟨whole, hne, hwhole, heq⟩ := h
    obtain ⟨c, cs, rfl⟩ := List.exists_cons_of_ne_nil hne
    have hc := (kinds_of_isDigit (hwhole c List.mem_cons_self)).1
    rcases heq with heq | ⟨fraction, heq, -⟩
    · exact ⟨c, cs, heq, hc⟩
    · exact ⟨c, _, heq, hc⟩
  | _ => contradiction

/-- A word that ends with a low line runs into any word or number. -/
theorem runsInto_identifier {text : String} (hword : u.isWordOrNumber = true)
    (h : text.toList.getLast? = some '_') : RunsInto (.identifier text) u := by
  cases u with
  | identifier | number => exact h
  | _ => contradiction

/-- A number that ends with a point runs into what begins with a digit. -/
theorem runsInto_number {text : String} (hword : u.isWordOrNumber = true)
    (h : text.toList.getLast? = some '.') (hc : c ∈ u.write.head?)
    (hdigit : Text.isDigit c = true) : RunsInto (.number text) u := by
  cases u with
  | identifier | number => exact ⟨h, c, hc, hdigit⟩
  | _ => contradiction

/-- The ways in which an argument runs into the next. -/
theorem RunsInto.cases (h : t.RunsInto u) :
    (u.isWordOrNumber = true ∧ ((∃ text, t = .identifier text ∧ text.toList.getLast? = some '_') ∨
      ∃ text, t = .number text ∧ text.toList.getLast? = some '.' ∧
        ∃ c ∈ u.write.head?, Text.isDigit c = true)) ∨
    (t = .string "" ∧ ∃ text, u = .string text) := by
  unfold RunsInto at h
  split at h
  · exact .inl ⟨rfl, .inl ⟨_, rfl, h⟩⟩
  · exact .inl ⟨rfl, .inl ⟨_, rfl, h⟩⟩
  · exact .inl ⟨rfl, .inr ⟨_, rfl, h⟩⟩
  · exact .inl ⟨rfl, .inr ⟨_, rfl, h⟩⟩
  · exact .inr ⟨h ▸ rfl, _, rfl⟩
  · contradiction

/-! ## Reading one argument -/

/-- A comma or a quote ends an argument, except a quote an empty text. -/
theorem isEndedBy_of_mem (ht : t.IsPlainArgument) (hc : c ∈ [',', '\''])
    (h : t = .string "" → c ≠ '\'') : t.isEndedBy c = true := by
  have hname : isNameChar c = false ∧ c ≠ '.' := by
    simp only [List.mem_cons, List.not_mem_nil, or_false] at hc
    rcases hc with rfl | rfl <;> decide
  rcases ht.isArgument with ⟨text, rfl⟩ | ⟨text, rfl⟩ | ⟨text, rfl⟩ | rfl
  · simp [isEndedBy, hname]
  · simp [isEndedBy, hname]
  · by_cases htext : text = ""
    · simp [isEndedBy, h (by rw [htext])]
    · simp [isEndedBy, htext]
  · rfl

/-- A number that ends with a point goes on with digits, and with nothing else. -/
theorem isReadAs_of_point {text : String} {digits : List Char} {tokens : List Token}
    (h : IsNumber text.toList) (hlast : text.toList.getLast? = some '.')
    (hdigits : ∀ c ∈ digits, Text.isDigit c = true)
    (hend : ∀ c ∈ cs.head?, Text.isDigit c = false) :
    IsReadAs (text.toList ++ (digits ++ cs)) tokens ↔
      ∃ more, tokens = .number (String.ofList (text.toList ++ digits)) :: more ∧
        IsReadAs cs more := by
  obtain ⟨d, whole, heq, hwhole⟩ := h.exists_of_point hlast
  have hfirst := first_of_fraction hwhole hdigits hend
  have hnumber : d :: whole ++ '.' :: digits = text.toList ++ digits := by simp [heq]
  have htext : text.toList ++ (digits ++ cs) = d :: (whole ++ '.' :: (digits ++ cs)) := by
    simp [heq]
  rw [hnumber] at hfirst
  rw [htext]
  exact isReadAs_of_first hfirst rfl

/-- An argument that no letter or digit ends is read as it is before a word or a number. -/
theorem isReadAs_append_word (ht : t.IsPlainArgument) (hu : u.IsPlainArgument)
    (hword : u.isWordOrNumber = true) (hends : endsAlphanumeric t.write = false)
    (h : ¬ t.RunsInto u) (cs : List Char) {tokens : List Token} :
    IsReadAs (t.write ++ (u.write ++ cs)) tokens ↔
      ∃ more, tokens = t :: more ∧ IsReadAs (u.write ++ cs) more := by
  have hspells := spells_write ht.isWritable
  obtain ⟨d, ds, hd, hname⟩ := exists_write_of_isWordOrNumber hu.isWritable hword
  rcases ht.isArgument with ⟨text, rfl⟩ | ⟨text, rfl⟩ | ⟨text, rfl⟩ | rfl
  · rcases IsIdentifier.endsAlphanumeric_or ht.isWritable with hyes | hlast
    · exact absurd (hyes.symm.trans hends) (by decide)
    · exact absurd (runsInto_identifier hword hlast) h
  · rcases IsNumber.endsAlphanumeric_or ht.isWritable with hyes | hlast
    · exact absurd (hyes.symm.trans hends) (by decide)
    -- what follows may be a part of a name here, but is no digit
    · have hend : ∀ c ∈ (u.write ++ cs).head?, Text.isDigit c = false := by
        intro c hc
        rw [hd] at hc
        cases hc
        cases hdigit : Text.isDigit d with
        | false => rfl
        | true => exact absurd (runsInto_number hword hlast (by rw [hd]; rfl) hdigit) h
      have hread : IsReadAs (text.toList ++ ([] ++ (u.write ++ cs))) tokens ↔ _ :=
        isReadAs_of_point ht.isWritable hlast (List.forall_mem_nil _) hend
      rwa [List.append_nil, List.nil_append, String.ofList_toList] at hread
  · refine isReadAs_append hspells ?_
    rw [hd]
    rintro _ ⟨⟩
    have hquote : d ≠ '\'' := by
      rintro rfl
      revert hname
      decide
    simp [isEndedBy, hquote]
  · exact isReadAs_append hspells fun _ _ => rfl

/-- An argument that does not run into the next is read as it is. -/
theorem isReadAs_of_not_runsInto (ht : t.IsPlainArgument) (hu : u.IsPlainArgument)
    (h : ¬ t.RunsInto u) (cs : List Char) {tokens : List Token} :
    IsReadAs (t.write ++ (argumentGap t u ++ (u.write ++ cs))) tokens ↔
      ∃ more, tokens = t :: more ∧ IsReadAs (argumentGap t u ++ (u.write ++ cs)) more := by
  have hspells := spells_write ht.isWritable
  by_cases hspace : (u.isWordOrNumber && endsAlphanumeric t.write) = true
  · rw [argumentGap, if_pos hspace]
    refine isReadAs_append hspells ?_
    rintro _ ⟨⟩
    exact isEndedBy_of_isBlank (by decide) t
  rw [argumentGap, if_neg hspace, List.nil_append]
  rw [Bool.and_eq_true, not_and, Bool.not_eq_true] at hspace
  cases hword : u.isWordOrNumber with
  | true => exact isReadAs_append_word ht hu hword (hspace hword) h cs
  | false =>
    refine isReadAs_append hspells ?_
    rcases hu.isArgument with ⟨text, rfl⟩ | ⟨text, rfl⟩ | ⟨text, rfl⟩ | rfl
    · contradiction
    · contradiction
    · rintro _ ⟨⟩
      refine isEndedBy_of_mem ht (by decide) ?_
      rintro rfl
      exact absurd rfl h
    · rintro _ ⟨⟩
      exact isEndedBy_of_mem ht (by decide) fun _ => by decide

/-- Nothing stands behind an argument that ends with neither a letter nor a digit. -/
theorem argumentGap_of_getLast? (h : t.write.getLast? = some c)
    (hc : Text.isAlphanumeric c = false) (u : Token) : argumentGap t u = [] := by
  rw [argumentGap, endsAlphanumeric, h]
  simp [hc]

/-- A text that goes on is another text. -/
theorem ofList_append_ne {text : String} {more : List Char} (h : more ≠ []) :
    String.ofList (text.toList ++ more) ≠ text := by
  intro heq
  have := congrArg String.toList heq
  rw [String.toList_ofList, List.append_right_eq_self] at this
  exact h this

/-- A word or a number that runs into the next is read as another token. -/
theorem exists_of_isReadAs_runsInto {tokens : List Token} (ht : t.IsPlainArgument)
    (hu : u.IsPlainArgument) (hword : u.isWordOrNumber = true) (h : t.RunsInto u)
    (hread : IsReadAs (t.write ++ (argumentGap t u ++ (u.write ++ cs))) tokens) :
    ∃ t' more, tokens = t' :: more ∧ t' ≠ t ∧ ∀ text, t' ≠ .string text := by
  obtain ⟨d, ds, hd, hname⟩ := exists_write_of_isWordOrNumber hu.isWritable hword
  -- what the argument is read with beyond its end
  have hne {p : Char → Bool} (hp : p d = true) : (u.write ++ cs).takeWhile p ≠ [] := by
    rw [hd, List.cons_append, List.takeWhile_cons_of_pos hp]
    exact List.cons_ne_nil _ _
  rcases h.cases with ⟨-, ⟨text, rfl, hlast⟩ | ⟨text, rfl, hlast, e, he, hdigit⟩⟩ | ⟨-, text, rfl⟩
  · rw [argumentGap_of_getLast? (t := .identifier text) hlast (by decide), List.nil_append,
      ← List.takeWhile_append_dropWhile (p := isNameChar) (l := u.write ++ cs),
      ← List.append_assoc] at hread
    have hlonger : IsIdentifier (text.toList ++ (u.write ++ cs).takeWhile isNameChar) :=
      IsIdentifier.append ht.isWritable fun _ => List.mem_takeWhile_imp
    have hend (text : String) : ∀ c ∈ ((u.write ++ cs).dropWhile isNameChar).head?,
        (identifier text).isEndedBy c = true := by
      intro c hc
      simp [isEndedBy, Text.head?_dropWhile_eq _ _ c hc]
    obtain ⟨more, rfl, -⟩ := (isReadAs_append (spells_identifier hlonger) (hend _)).1 hread
    exact ⟨_, more, rfl, fun heq => ofList_append_ne (hne hname) (identifier.inj heq), by simp⟩
  · rw [hd] at he
    cases he
    rw [argumentGap_of_getLast? (t := .number text) hlast (by decide), List.nil_append,
      ← List.takeWhile_append_dropWhile (p := Text.isDigit) (l := u.write ++ cs)] at hread
    obtain ⟨more, rfl, -⟩ :=
      (isReadAs_of_point ht.isWritable hlast (fun _ => List.mem_takeWhile_imp)
        (Text.head?_dropWhile_eq _ _)).1 hread
    exact ⟨_, more, rfl, fun heq => ofList_append_ne (hne hdigit) (number.inj heq), by simp⟩
  · contradiction

/-! ## Empty texts -/

/-- A body between three quotes is empty only if nothing is written there. -/
theorem unescapeTriple_ne_nil (h : cs ≠ []) : Quotes.unescapeTriple cs ≠ [] := by
  fun_cases Quotes.unescapeTriple cs with
  | case1 => exact List.cons_ne_nil _ _
  | case2 => exact List.cons_ne_nil _ _
  | case3 => exact absurd rfl h

/-- Only an empty text is written with two quotes at its front. -/
theorem eq_empty_of_write {rest : List Char} (ht : t.IsPlainArgument)
    (h : t.write ++ cs = '\'' :: '\'' :: rest) : t = .string "" ∧ cs = rest := by
  have hnot (hword : t.isWordOrNumber = true) : False := by
    obtain ⟨c, ds, hc, hname⟩ := exists_write_of_isWordOrNumber ht.isWritable hword
    rw [hc] at h
    obtain ⟨rfl, -⟩ := List.cons.inj h
    revert hname
    decide
  rcases ht.isArgument with ⟨text, rfl⟩ | ⟨text, rfl⟩ | ⟨text, rfl⟩ | rfl
  · exact (hnot rfl).elim
  · exact (hnot rfl).elim
  · rw [write_of_isPlainArgument ht, List.cons_append, List.append_assoc] at h
    have h := (List.cons.inj h).2
    cases htext : text.toList with
    | nil =>
      rw [htext] at h
      exact ⟨by rw [String.toList_eq_nil_iff.1 htext], (List.cons.inj h).2⟩
    | cons c ds =>
      rw [htext] at h
      obtain ⟨rfl, -⟩ := List.cons.inj h
      exact absurd (by simp) (ht.isPlain text rfl '\'' (htext ▸ List.mem_cons_self))
  · cases h

/-- An empty text has nothing between it and the next argument. -/
theorem argumentsBehind_empty (us : List Token) :
    argumentsBehind (.string "") us = argumentsText us := by
  cases us with
  | nil => rfl
  | cons u us =>
    rw [argumentsBehind, argumentGap_of_getLast? (c := '\'') rfl (by decide)]
    rfl

/-- Three quotes at the front of arguments are read as a text, which is empty only if the arguments
begin with three empty ones. -/
theorem exists_of_isReadAs_triple {text : String} {us tokens : List Token}
    (hu : IsPlainArgument (.string text)) (h : ∀ u ∈ us, u.IsPlainArgument)
    (hread : IsReadAs (argumentsText (.string "" :: .string text :: us)) tokens) :
    ∃ first more, tokens = .string first :: more ∧ (first = "" →
      text = "" ∧ ∃ vs, us = .string "" :: vs ∧ IsReadAs (argumentsText vs) more) := by
  let inside := text.toList ++ ['\''] ++ argumentsBehind (.string text) us
  have hwrite :
      (Token.string text).write ++ argumentsBehind (.string text) us = '\'' :: inside := by
    rw [write_of_isPlainArgument hu]
    rfl
  have htext : argumentsText (.string "" :: .string text :: us) =
      '\'' :: '\'' :: '\'' :: inside := by
    rw [argumentsText, argumentsBehind_empty, argumentsText, hwrite]
    rfl
  have hfirst : first '\'' ('\'' :: '\'' :: inside) = betweenTriple inside := rfl
  rw [htext] at hread
  rw [betweenTriple] at hfirst
  cases hcut : Quotes.cutTriple inside with
  | none =>
    rw [hcut] at hfirst
    exact absurd hread (not_isReadAs_of_error hfirst)
  | some r =>
    obtain ⟨body, rest⟩ := r
    rw [hcut] at hfirst
    obtain ⟨more, rfl, hmore⟩ := (isReadAs_of_first hfirst rfl).1 hread
    refine ⟨_, more, rfl, fun hempty => ?_⟩
    have hbody : body = [] := by
      by_contra hne
      exact unescapeTriple_ne_nil hne (by simpa using congrArg String.toList hempty)
    have hinside := Quotes.append_of_cutTriple hcut
    rw [hbody, List.nil_append] at hinside
    obtain ⟨hstring, hbehind⟩ := eq_empty_of_write hu (hwrite.trans (congrArg _ hinside.symm))
    cases hstring
    refine ⟨rfl, ?_⟩
    rw [argumentsBehind_empty] at hbehind
    cases us with
    | nil => contradiction
    | cons v vs =>
      obtain ⟨rfl, rfl⟩ := eq_empty_of_write (h v List.mem_cons_self) hbehind
      exact ⟨vs, rfl, argumentsBehind_empty vs ▸ hmore⟩

/-! ## Reading all arguments -/

/-- The space between two arguments changes nothing about what is read behind it. -/
theorem isReadAs_argumentGap {tokens : List Token} :
    IsReadAs (argumentGap t u ++ cs) tokens ↔ IsReadAs cs tokens := by
  rw [argumentGap]
  split
  · exact isReadAs_blank (by decide) cs
  · rfl

/-- An argument that does not run into the next is read, and then the others. -/
theorem isReadAs_argumentsText_cons {us tokens : List Token} (ht : t.IsPlainArgument)
    (h : ∀ u ∈ us, u.IsPlainArgument) (hrun : ∀ u ∈ us.head?, ¬ t.RunsInto u) :
    IsReadAs (argumentsText (t :: us)) tokens ↔
      ∃ more, tokens = t :: more ∧ IsReadAs (argumentsText us) more := by
  cases us with
  | nil =>
    change IsReadAs (t.write ++ []) tokens ↔ ∃ more, tokens = t :: more ∧ IsReadAs [] more
    rw [List.append_nil, isReadAs_of_spells (spells_write ht.isWritable)]
    simp [isReadAs_nil]
  | cons u us =>
    have hu := h u List.mem_cons_self
    rw [argumentsText, argumentsBehind, isReadAs_of_not_runsInto ht hu (hrun u rfl)]
    simp only [isReadAs_argumentGap]
    rfl

section

variable {k : Nat} {us : List Token}

/-- A list that begins with copies of its first token still does without the first. -/
theorem eq_of_replicate_append {e : Token} {more : List Token}
    (h : List.replicate k e ++ t :: us = t :: more) : more = List.replicate k e ++ us := by
  cases k with
  | zero => exact (List.cons.inj h).2.symm
  | succ k =>
    rw [List.replicate_succ, List.cons_append] at h
    obtain ⟨rfl, rfl⟩ := List.cons.inj h
    rw [List.replicate_succ', List.append_assoc]
    rfl

/-- Where a word or a number runs into the next, neither it nor an empty text is read. -/
theorem not_isReadAs_of_runsInto (ht : t.IsPlainArgument) (hu : u.IsPlainArgument)
    (hword : u.isWordOrNumber = true) (hrun : t.RunsInto u) :
    ¬ IsReadAs (argumentsText (t :: u :: us)) (List.replicate k (.string "") ++ t :: u :: us) := by
  intro hread
  obtain ⟨t', more, heq, hne, hstring⟩ := exists_of_isReadAs_runsInto ht hu hword hrun hread
  cases k with
  | zero => exact hne (List.cons.inj heq).1.symm
  | succ k => exact hstring _ (List.cons.inj heq).1.symm

/-- Three empty texts are read as one, so two of them are left for the arguments behind. -/
theorem exists_of_isReadAs_empty {text : String} (hu : IsPlainArgument (.string text))
    (h : ∀ u ∈ us, u.IsPlainArgument)
    (hread : IsReadAs (argumentsText (.string "" :: .string text :: us))
      (List.replicate k (.string "") ++ .string "" :: .string text :: us)) :
    ∃ vs, us = .string "" :: vs ∧
      IsReadAs (argumentsText vs) (List.replicate (k + 2) (.string "") ++ vs) := by
  obtain ⟨first, more, heq, hempty⟩ := exists_of_isReadAs_triple hu h hread
  have hfirst : Token.string first = .string "" := by
    cases k with
    | zero => exact (List.cons.inj heq).1.symm
    | succ k => exact (List.cons.inj heq).1.symm
  obtain ⟨rfl, vs, rfl, hmore⟩ := hempty (string.inj hfirst)
  refine ⟨vs, rfl, ?_⟩
  rw [hfirst] at heq
  rw [eq_of_replicate_append heq] at hmore
  rw [List.replicate_succ', List.replicate_succ', List.append_assoc, List.append_assoc]
  exact hmore

end

/-- Arguments are read only if none runs into the next, and not behind empty texts that are not
there. -/
theorem isChain_of_isReadAs {ts : List Token} (h : ∀ t ∈ ts, t.IsPlainArgument) {k : Nat}
    (hread : IsReadAs (argumentsText ts) (List.replicate k (.string "") ++ ts)) :
    k = 0 ∧ ts.IsChain fun t u => ¬ t.RunsInto u := by
  match ts with
  | [] =>
    have hnil := isReadAs_nil.1 hread
    rw [List.append_nil, List.replicate_eq_nil_iff] at hnil
    exact ⟨hnil, .nil⟩
  | t :: us =>
    have ht := h t List.mem_cons_self
    have hus : ∀ u ∈ us, u.IsPlainArgument := fun u hu => h u (List.mem_cons_of_mem t hu)
    by_cases hrun : ∃ u ∈ us.head?, t.RunsInto u
    · exfalso
      obtain ⟨u, hhead, hrun⟩ := hrun
      obtain ⟨us, rfl⟩ := List.head?_eq_some_iff.1 hhead
      have hu := hus u List.mem_cons_self
      rcases hrun.cases with ⟨hword, -⟩ | ⟨rfl, text, rfl⟩
      · exact not_isReadAs_of_runsInto ht hu hword hrun hread
      · have hvs : ∀ v ∈ us, v.IsPlainArgument := fun v hv => hus v (List.mem_cons_of_mem _ hv)
        obtain ⟨vs, rfl, hmore⟩ := exists_of_isReadAs_empty hu hvs hread
        have hvs : ∀ v ∈ vs, v.IsPlainArgument := fun v hv => hvs v (List.mem_cons_of_mem _ hv)
        exact absurd (isChain_of_isReadAs hvs hmore).1 (Nat.succ_ne_zero _)
    · have hrun : ∀ u ∈ us.head?, ¬ t.RunsInto u := fun u hu hr => hrun ⟨u, hu, hr⟩
      obtain ⟨more, heq, hmore⟩ := (isReadAs_argumentsText_cons ht hus hrun).1 hread
      rw [eq_of_replicate_append heq] at hmore
      obtain ⟨hk, hchain⟩ := isChain_of_isReadAs hus hmore
      exact ⟨hk, List.isChain_cons.2 ⟨hrun, hchain⟩⟩
termination_by ts.length

/-- **Arguments are read back exactly if none runs into the next.** -/
theorem isReadAs_argumentsText_iff {ts : List Token} (h : ∀ t ∈ ts, t.IsPlainArgument) :
    IsReadAs (argumentsText ts) ts ↔ ts.IsChain fun t u => ¬ t.RunsInto u := by
  constructor
  · exact fun hread => (isChain_of_isReadAs (k := 0) h hread).2
  · intro hchain
    induction ts with
    | nil => exact isReadAs_nil.2 rfl
    | cons t us ih =>
      have hus : ∀ u ∈ us, u.IsPlainArgument := fun u hu => h u (List.mem_cons_of_mem t hu)
      rw [List.isChain_cons] at hchain
      refine (isReadAs_argumentsText_cons (h t List.mem_cons_self) hus hchain.1).2 ?_
      exact ⟨us, rfl, ih hus hchain.2⟩

end Token

/-! ## The theorem -/

namespace Grammar

open SchemaDiagram.Parser
open Token (IsPlainArgument argumentsText)

/-- **Arguments of a type are told apart by their text unless one runs into the next.**  The text of
arguments is read as the same tokens exactly if no argument runs into the one behind it, and of all
arguments that do not, only these have this text. -/
theorem typeArguments_read_back_iff {o c : Located} (args rest : List Located)
    (ho : o.token = .symbol .openParen) (hc : c.token = .symbol .closeParen)
    (h : ∀ t ∈ args, t.token.IsPlainArgument) :
    ∃ text, typeArguments (o :: (args ++ c :: rest)) = .ok (some text, rest) ∧
      (((Lexing.of text).tokens.map (·.token) = args.map (·.token) ∧
        (Lexing.of text).fault = none) ↔
          (args.map (·.token)).IsChain fun t u => ¬ t.RunsInto u) ∧
      ((args.map (·.token)).IsChain (fun t u => ¬ t.RunsInto u) → ∀ others : List Located,
        (∀ t ∈ others, t.token.IsPlainArgument) →
        (others.map (·.token)).IsChain (fun t u => ¬ t.RunsInto u) →
        typeArguments (o :: (others ++ c :: rest)) = .ok (some text, rest) →
          others.map (·.token) = args.map (·.token)) := by
  have hplain : ∀ t ∈ args.map (·.token), t.IsPlainArgument := by simpa using h
  refine ⟨_, typeArguments_eq ho hc h, ?_, fun hchain others hothers hchain' heq => ?_⟩
  · rw [Lexing.isReadAs_iff, String.toList_ofList]
    exact Token.isReadAs_argumentsText_iff hplain
  · rw [typeArguments_eq ho hc hothers] at heq
    have htext := Option.some.inj (Prod.mk.inj (Except.ok.inj heq)).1
    rw [← String.toList_inj, String.toList_ofList, String.toList_ofList] at htext
    have hplain' : ∀ t ∈ others.map (·.token), t.IsPlainArgument := by simpa using hothers
    have hread := (Token.isReadAs_argumentsText_iff hplain).2 hchain
    have hread' := (Token.isReadAs_argumentsText_iff hplain').2 hchain'
    rw [htext] at hread'
    exact hread'.2.symm.trans hread.2

/-- A word is a plain argument. -/
theorem isPlainArgument_word {text : String} (h : IsIdentifier text.toList) :
    IsPlainArgument (.identifier text) :=
  ⟨.inl ⟨text, rfl⟩, h, fun _ h => by contradiction⟩

/-- A number is a plain argument. -/
theorem isPlainArgument_number {text : String} (h : IsNumber text.toList) :
    IsPlainArgument (.number text) :=
  ⟨.inr (.inl ⟨text, rfl⟩), h, fun _ h => by contradiction⟩

/-- A text without quotes, backslashes and line feeds is a plain argument. -/
theorem isPlainArgument_string {text : String}
    (h : ∀ c ∈ text.toList, c ∉ ['\'', '\\', '\n']) : IsPlainArgument (.string text) :=
  ⟨.inr (.inr (.inl ⟨text, rfl⟩)), trivial, fun _ heq => Token.string.inj heq ▸ h⟩

/-- A number that ends with a point before a word that begins with a letter, and two texts. -/
theorem typeArguments_read_back_neighbours :
    ∃ text, typeArguments (Lexing.of "(1. x 'a' 'b')").tokens = .ok (some text, []) ∧
      (Lexing.of text).tokens.map (·.token) =
        [.number "1.", .identifier "x", .string "a", .string "b"] := by
  have htokens : (Lexing.of "(1. x 'a' 'b')").tokens = ⟨.symbol .openParen, ⟨1, 1⟩⟩ ::
      ([⟨.number "1.", ⟨1, 2⟩⟩, ⟨.identifier "x", ⟨1, 5⟩⟩, ⟨.string "a", ⟨1, 7⟩⟩,
        ⟨.string "b", ⟨1, 11⟩⟩] ++ ⟨.symbol .closeParen, ⟨1, 14⟩⟩ :: []) := by decide +kernel
  have hnumber : IsPlainArgument (.number "1.") :=
    isPlainArgument_number
      ⟨['1'], List.cons_ne_nil _ _, List.forall_mem_singleton.2 rfl,
        .inr ⟨[], rfl, List.forall_mem_nil _⟩⟩
  have hword : IsPlainArgument (.identifier "x") :=
    isPlainArgument_word
      ⟨[], 'x', [], rfl, List.forall_mem_nil _, rfl, List.forall_mem_nil _⟩
  have ha : IsPlainArgument (.string "a") := isPlainArgument_string (by simp)
  have hb : IsPlainArgument (.string "b") := isPlainArgument_string (by simp)
  obtain ⟨text, hok, hiff, -⟩ := typeArguments_read_back_iff
    (o := ⟨.symbol .openParen, ⟨1, 1⟩⟩) (c := ⟨.symbol .closeParen, ⟨1, 14⟩⟩)
    [⟨.number "1.", ⟨1, 2⟩⟩, ⟨.identifier "x", ⟨1, 5⟩⟩, ⟨.string "a", ⟨1, 7⟩⟩,
      ⟨.string "b", ⟨1, 11⟩⟩] [] rfl rfl (by simp [hnumber, hword, ha, hb])
  rw [htokens]
  exact ⟨text, hok, (hiff.2 (by simp [Token.RunsInto]; decide)).1⟩

/-- A word that ends with a low line before another one: the text is that of one word. -/
theorem not_read_back_of_low_line :
    typeArguments (Lexing.of "(a_ b)").tokens = .ok (some "a_b", []) ∧
    typeArguments (Lexing.of "(a_b)").tokens = .ok (some "a_b", []) ∧
    ¬ ∀ o c args rest text, o.token = .symbol .openParen → c.token = .symbol .closeParen →
      (∀ t ∈ args, t.token.IsPlainArgument) →
      typeArguments (o :: (args ++ c :: rest)) = .ok (some text, rest) →
        (Lexing.of text).tokens.map (·.token) = args.map (·.token) := by
  have htwo : typeArguments (Lexing.of "(a_ b)").tokens = .ok (some "a_b", []) := by decide +kernel
  refine ⟨htwo, by decide +kernel, fun h => ?_⟩
  have htokens : (Lexing.of "(a_ b)").tokens = ⟨.symbol .openParen, ⟨1, 1⟩⟩ ::
      ([⟨.identifier "a_", ⟨1, 2⟩⟩, ⟨.identifier "b", ⟨1, 5⟩⟩] ++
        ⟨.symbol .closeParen, ⟨1, 6⟩⟩ :: []) := by decide +kernel
  have hfirst : IsPlainArgument (.identifier "a_") :=
    isPlainArgument_word
      ⟨[], 'a', ['_'], rfl, List.forall_mem_nil _, rfl, List.forall_mem_singleton.2 rfl⟩
  have hsecond : IsPlainArgument (.identifier "b") :=
    isPlainArgument_word
      ⟨[], 'b', [], rfl, List.forall_mem_nil _, rfl, List.forall_mem_nil _⟩
  rw [htokens] at htwo
  have hone : (Lexing.of "a_b").tokens.map (·.token) = [.identifier "a_b"] := by decide +kernel
  have hread := h _ _ _ _ _ rfl rfl (by simp [hfirst, hsecond]) htwo
  rw [hone] at hread
  revert hread
  decide

end Grammar

end SchemaDiagram
