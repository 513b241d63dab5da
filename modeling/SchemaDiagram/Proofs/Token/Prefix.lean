import SchemaDiagram.Proofs.Token.Concat

/-!
# SchemaDiagram.Proofs.Token.Prefix

What is read of the front of a text, if the text is cut where a piece ends.

A piece is taken as long as it can be, so the rest of the text can decide where it ends.  But where
it has ended, it ends as well if nothing follows there (`Lexeme.first_of_append`).  So what comes
before a fault is read as on its own, with the same tokens (`Lexeme.exists_all_of_fault`).
-/

namespace SchemaDiagram.Lexeme

open Token.Quotes (cut cutTriple body_of_cut cut_of_body tripleBody_of_cutTriple
  cutTriple_of_tripleBody)

variable {c : Char} {cs mid rest : List Char} {l : Lexeme}

/-! ## Words, numbers and colours -/

/-- Characters that are split off by a test without touching what follows are split off without what
follows, too. -/
theorem takeWhile_of_dropWhile_append {p : Char → Bool}
    (h : (cs ++ rest).dropWhile p = mid ++ rest) :
    cs.takeWhile p = (cs ++ rest).takeWhile p ∧ cs.dropWhile p = mid := by
  have hcs : cs = (cs ++ rest).takeWhile p ++ mid := by
    have := List.takeWhile_append_dropWhile (p := p) (l := cs ++ rest)
    rw [h, ← List.append_assoc] at this
    exact (List.append_cancel_right this).symm
  have hmid : ∀ d ∈ mid.head?, p d = false := by
    intro d hd
    have hhead : d ∈ ((cs ++ rest).dropWhile p).head? := by rw [h, List.head?_append, hd]; rfl
    exact Text.head?_dropWhile_eq p _ d hhead
  obtain ⟨htake, hdrop⟩ :=
    takeWhile_append_of_all (p := p) (fun _ => List.mem_takeWhile_imp) hmid
  rw [← hcs] at htake hdrop
  exact ⟨htake, hdrop⟩

/-- A name that ends before what follows ends there without it. -/
theorem identifier_of_append {begun : List Char}
    (h : identifier begun (cs ++ rest) = (l, mid ++ rest)) : identifier begun cs = (l, mid) := by
  obtain ⟨rfl, hdrop⟩ := Prod.mk.inj h
  obtain ⟨htake, hdrop⟩ := takeWhile_of_dropWhile_append hdrop
  rw [identifier, htake, hdrop]

/-- A colour that ends before what follows ends there without it. -/
theorem color_of_append (h : color (cs ++ rest) = (l, mid ++ rest)) : color cs = (l, mid) := by
  obtain ⟨rfl, hdrop⟩ := Prod.mk.inj h
  obtain ⟨htake, hdrop⟩ := takeWhile_of_dropWhile_append hdrop
  rw [color, htake, hdrop]

/-- A number takes all digits at the front. -/
theorem suffix_of_number (c : Char) (cs : List Char) :
    (number c cs).2 <:+ cs.dropWhile Text.isDigit := by
  unfold number
  split
  · rename_i after heq
    rw [heq]
    exact (List.dropWhile_suffix _).trans (List.suffix_cons '.' after)
  · exact List.nil_suffix
  · rename_i d after _ heq
    rw [heq]
    split
    · exact List.dropWhile_suffix _
    · exact List.suffix_refl _

/-- A number that leaves all that stands behind its digits has only these. -/
theorem number_eq_numeral (h : (number c cs).2 = cs.dropWhile Text.isDigit) :
    number c cs = numeral (c :: cs.takeWhile Text.isDigit) (cs.dropWhile Text.isDigit) := by
  unfold number at h ⊢
  generalize c :: cs.takeWhile Text.isDigit = digits at h ⊢
  generalize cs.dropWhile Text.isDigit = behind at h ⊢
  split at h
  · rename_i after
    have hlength := (List.dropWhile_suffix Text.isDigit (l := after)).length_le
    have hrest : after.dropWhile Text.isDigit = '.' :: after := h
    rw [hrest] at hlength
    exact absurd hlength (Nat.not_succ_le_self _)
  · rfl
  · rename_i d after _
    by_cases hstart : isNameStart d = true
    · rw [if_pos hstart] at h
      have hrest : (d :: after).dropWhile isNameChar = d :: after := h
      have hstop : isNameChar d = false :=
        Text.head?_dropWhile_eq _ _ d (by rw [hrest]; exact List.head?_cons)
      rw [isNameChar_of_isNameStart hstart] at hstop
      contradiction
    · simp only [if_neg hstart]

/-- A number that ends before what follows ends there without it. -/
theorem number_of_append (h : number c (cs ++ rest) = (l, mid ++ rest)) :
    number c cs = (l, mid) := by
  obtain ⟨between, hbetween⟩ := suffix_of_number c (cs ++ rest)
  rw [h, ← List.append_assoc] at hbetween
  obtain ⟨htake, hdrop⟩ := takeWhile_of_dropWhile_append hbetween.symm
  cases hbehind : between ++ mid with
  -- all of it is digits
  | nil =>
    obtain ⟨rfl, rfl⟩ := List.append_eq_nil_iff.1 hbehind
    rw [number_eq_numeral (by rw [h]; exact hbetween), ← htake] at h
    obtain ⟨rfl, -⟩ := Prod.mk.inj h
    rw [number, hdrop]
    rfl
  | cons d behind =>
    unfold number at h ⊢
    rw [← hbetween, ← htake, hbehind] at h
    rw [hdrop, hbehind]
    generalize c :: cs.takeWhile Text.isDigit = digits at h ⊢
    by_cases hd : d = '.'
    · subst hd
      obtain ⟨rfl, hfraction⟩ := Prod.mk.inj h
      obtain ⟨htake, hdrop⟩ := takeWhile_of_dropWhile_append hfraction
      simp only [htake, hdrop, List.append_eq]
      rfl
    · simp only [List.cons_append] at h ⊢
      split at h
      -- digits that go on as a name
      · rename_i hstart
        have hname : identifier digits (d :: behind ++ rest) = (l, mid ++ rest) := h
        rw [if_pos hstart, identifier_of_append hname]
      · rename_i hstart
        obtain ⟨rfl, hrest⟩ := Prod.mk.inj h
        obtain rfl : d :: behind = mid := List.append_cancel_right hrest
        rw [if_neg hstart, numeral]

/-! ## Quoted text and comments -/

/-- A comment is open exactly if nothing closes it. -/
theorem cutComment_eq_none_iff : cutComment cs = none ↔ ¬ ['*', '/'] <:+: cs := by
  fun_induction cutComment cs with
  | case1 => simp
  | case2 cs =>
    have hclose : ['*', '/'] <:+: '*' :: '/' :: cs := (List.prefix_append ['*', '/'] cs).isInfix
    simp [hclose]
  | case3 c cs hclose ih =>
    rw [Option.map_eq_none_iff, ih, List.infix_cons_iff, not_or, iff_and_self]
    rintro - ⟨after, hafter⟩
    cases hafter
    exact hclose after rfl rfl

/-- A comment to the end of the line that ends before what follows ends there without it. -/
theorem lineComment_of_append (h : lineComment (cs ++ rest) = (l, mid ++ rest)) :
    lineComment cs = (l, mid) := by
  obtain ⟨rfl, hdrop⟩ := Prod.mk.inj h
  obtain ⟨htake, hdrop⟩ := takeWhile_of_dropWhile_append hdrop
  rw [lineComment, htake, hdrop]

/-- The body of a comment that is closed before what follows is the same without it. -/
theorem cutComment_of_append {body : List Char}
    (h : cutComment (cs ++ rest) = some (body, mid ++ rest)) :
    cutComment cs = some (body, mid) := by
  have hcs := append_of_cutComment h
  rw [← List.cons_append, ← List.cons_append, ← List.append_assoc] at hcs
  obtain rfl := List.append_cancel_right hcs
  cases hcut : cutComment (body ++ '*' :: '/' :: mid) with
  | none =>
    rw [cutComment_eq_none_iff] at hcut
    exact absurd ⟨body, mid, by simp⟩ hcut
  | some r =>
    rw [cutComment_append hcut, Option.some.injEq, Prod.mk.injEq] at h
    obtain ⟨hbody, hmid⟩ := h
    exact congrArg some (Prod.ext hbody (List.append_cancel_right hmid))

/-- A comment that is closed before what follows is the same without it. -/
theorem blockComment_of_append (h : blockComment (cs ++ rest) = .ok (l, mid ++ rest)) :
    blockComment cs = .ok (l, mid) := by
  unfold blockComment at h
  split at h
  · contradiction
  · rename_i hcut
    obtain ⟨rfl, rfl⟩ := Prod.mk.inj (Except.ok.inj h)
    rw [blockComment, cutComment_of_append hcut]

/-- Behind a comment stands an end of the text. -/
theorem suffix_of_blockComment (h : blockComment cs = .ok (l, rest)) : rest <:+ cs := by
  unfold blockComment at h
  split at h
  · contradiction
  · rename_i body after hcut
    obtain ⟨rfl, rfl⟩ := Prod.mk.inj (Except.ok.inj h)
    exact ⟨body ++ ['*', '/'], by simpa using append_of_cutComment hcut⟩

/-- A body that is closed before what follows is the same without it. -/
theorem cut_of_append {quote : Char} (hq : quote ≠ '\\') {body : List Char}
    (h : cut quote (cs ++ rest) = some (body, mid ++ rest)) : cut quote cs = some (body, mid) := by
  have hcs := Token.Quotes.append_of_cut h
  rw [← List.cons_append, ← List.append_assoc] at hcs
  obtain rfl := List.append_cancel_right hcs
  exact cut_of_body hq (body_of_cut h) mid

/-- A body between three quotes that is closed before what follows is the same without it. -/
theorem cutTriple_of_append {body : List Char}
    (h : cutTriple (cs ++ rest) = some (body, mid ++ rest)) : cutTriple cs = some (body, mid) := by
  have hcs := Token.Quotes.append_of_cutTriple h
  rw [← List.cons_append, ← List.cons_append, ← List.cons_append, ← List.append_assoc] at hcs
  obtain rfl := List.append_cancel_right hcs
  exact (cutTriple_of_tripleBody (tripleBody_of_cutTriple h) mid).1

/-- A text between quotes that is closed before what follows is the same without it. -/
theorem between_of_append {quote : Char} {make : String → Token} (hq : quote ≠ '\\')
    (h : between quote make (cs ++ rest) = .ok (l, mid ++ rest)) :
    between quote make cs = .ok (l, mid) := by
  unfold between at h
  split at h
  · contradiction
  · rename_i hcut
    obtain ⟨rfl, rfl⟩ := Prod.mk.inj (Except.ok.inj h)
    rw [between, cut_of_append hq hcut]

/-- A text between three quotes that is closed before what follows is the same without it. -/
theorem betweenTriple_of_append (h : betweenTriple (cs ++ rest) = .ok (l, mid ++ rest)) :
    betweenTriple cs = .ok (l, mid) := by
  unfold betweenTriple at h
  split at h
  · contradiction
  · rename_i hcut
    obtain ⟨rfl, rfl⟩ := Prod.mk.inj (Except.ok.inj h)
    rw [betweenTriple, cutTriple_of_append hcut]

/-- What is left behind a text between three quotes is an end of the text. -/
theorem suffix_of_betweenTriple (h : betweenTriple cs = .ok (l, rest)) : rest <:+ cs := by
  unfold betweenTriple at h
  split at h
  · contradiction
  · rename_i body after hcut
    obtain ⟨rfl, rfl⟩ := Prod.mk.inj (Except.ok.inj h)
    exact ⟨body ++ ['\'', '\'', '\''], by simpa using Token.Quotes.append_of_cutTriple hcut⟩

/-! ## The first piece -/

/-- A text that is cut behind its first character has this character before the cut. -/
theorem exists_cons_of_suffix {d : Char} {after : List Char} (h : cs ++ rest = d :: after)
    (hs : mid ++ rest <:+ after) : ∃ ds, cs = d :: ds ∧ ds ++ rest = after := by
  cases cs with
  | nil =>
    rw [List.nil_append] at h
    have hlength := hs.length_le
    rw [h, List.length_append, List.length_cons] at hlength
    omega
  | cons e ds =>
    obtain ⟨rfl, hds⟩ := List.cons.inj h
    exact ⟨ds, rfl, hds⟩

/-- What begins with a mark and ends before what follows is the same lexeme without it. -/
theorem first_of_append_mark (hm : c ∈ marks) (h : first c (cs ++ rest) = .ok (l, mid ++ rest)) :
    first c cs = .ok (l, mid) := by
  generalize hall : cs ++ rest = all at h
  unfold first at h
  split at h
  -- a comment to the end of the line
  · rename_i after
    have hline : lineComment ('/' :: '/' :: after) = (l, mid ++ rest) := Except.ok.inj h
    have hrest : after.dropWhile (· != '\n') = mid ++ rest := (Prod.mk.inj hline).2
    obtain ⟨ds, rfl, rfl⟩ := exists_cons_of_suffix hall (hrest ▸ List.dropWhile_suffix _)
    exact congrArg Except.ok (lineComment_of_append hline)
  -- a comment that is closed
  · obtain ⟨ds, rfl, rfl⟩ := exists_cons_of_suffix hall (suffix_of_blockComment h)
    exact blockComment_of_append h
  -- the sign of two characters
  · obtain ⟨rfl, rfl⟩ := Prod.mk.inj (Except.ok.inj h)
    obtain ⟨ds, rfl, hds⟩ := exists_cons_of_suffix hall List.suffix_rfl
    obtain rfl := List.append_cancel_right hds
    rfl
  -- a text between three quotes
  · have hs := suffix_of_betweenTriple h
    obtain ⟨ds, rfl, hds⟩ := exists_cons_of_suffix hall (hs.trans (List.suffix_cons _ _))
    obtain ⟨es, rfl, rfl⟩ := exists_cons_of_suffix hds hs
    exact betweenTriple_of_append h
  -- a text between quotes: without what follows, no third quote can come up either
  · rename_i htriple
    rw [first]
    · exact between_of_append (by decide) (hall ▸ h)
    · rintro after rfl
      exact htriple (after ++ rest) hall.symm
  · exact between_of_append (by decide) (hall ▸ h)
  · exact between_of_append (by decide) (hall ▸ h)
  -- a colour
  · rename_i d after
    split at h
    · rename_i hhex
      have hcolor : color (d :: after) = (l, mid ++ rest) := Except.ok.inj h
      have hrest : after.dropWhile Text.isHexDigit = mid ++ rest := by
        rw [← (Prod.mk.inj hcolor).2, List.dropWhile_cons_of_pos hhex]
      obtain ⟨ds, rfl, rfl⟩ := exists_cons_of_suffix hall (hrest ▸ List.dropWhile_suffix _)
      rw [first, if_pos hhex, color_of_append hcolor]
    · contradiction
  -- a symbol of one character: `<` ends before what follows, so `>` is not the next one
  · rename_i hgreater _ _
    obtain ⟨hblank, hdigit, hname⟩ := kinds_of_mem_marks hm
    rw [hblank, hdigit, hname] at h
    by_cases hless : c = '<'
    · subst hless
      obtain ⟨rfl, rfl⟩ := Prod.mk.inj (Except.ok.inj h)
      obtain rfl := List.append_cancel_right hall
      refine first_of_less fun d hd => ?_
      rintro rfl
      obtain ⟨ds, rfl⟩ := List.head?_eq_some_iff.1 hd
      exact hgreater (ds ++ rest) rfl rfl
    · rw [ofChar?_of_mem_marks hm hless] at h
      contradiction

/-- A piece that ends where a text is cut is a piece of what comes before. -/
theorem first_of_append (h : first c (cs ++ rest) = .ok (l, mid ++ rest)) :
    first c cs = .ok (l, mid) := by
  by_cases hm : c ∈ marks
  · exact first_of_append_mark hm h
  rw [first_of_not_mark hm] at h ⊢
  split at h
  · rename_i hblank
    obtain ⟨rfl, hrest⟩ := Prod.mk.inj (Except.ok.inj h)
    obtain ⟨htake, hdrop⟩ := takeWhile_of_dropWhile_append hrest
    rw [if_pos hblank, htake, hdrop]
  · rename_i hblank
    rw [if_neg hblank]
    split at h
    · rename_i hdigit
      rw [if_pos hdigit, number_of_append (Except.ok.inj h)]
    · rename_i hdigit
      rw [if_neg hdigit]
      split at h
      · rename_i hstart
        rw [if_pos hstart, identifier_of_append (Except.ok.inj h)]
      · rename_i hstart
        rw [if_neg hstart]
        split at h
        · obtain ⟨rfl, hrest⟩ := Prod.mk.inj (Except.ok.inj h)
          rw [List.append_cancel_right hrest]
        · contradiction

/-! ## Texts with a fault -/

/-- What comes before a fault is read as on its own, with all the pieces of the text. -/
theorem exists_all_of_fault {fault : Fault} (cs : List Char) (h : (all cs).2 = some fault) :
    ∃ taken c rest, cs = taken ++ c :: rest ∧ first c rest = .error fault ∧
      all taken = ((all cs).1, none) := by
  fun_induction all cs with
  | case1 => contradiction
  | case2 c cs fault' hfirst =>
    cases h
    exact ⟨[], c, cs, rfl, hfirst, by rw [all]⟩
  | case3 c cs l rest hfirst _ ls fault' hall ih =>
    obtain ⟨taken, d, more, rfl, hd, htaken⟩ := ih (by rw [hall]; exact h)
    have hcs := append_of_first hfirst
    obtain ⟨e, ds, hl⟩ := List.exists_cons_of_ne_nil (text_ne_nil_of_first hfirst)
    rw [hl, List.cons_append, ← List.append_assoc] at hcs
    obtain ⟨rfl, rfl⟩ := List.cons.inj hcs
    refine ⟨e :: (ds ++ taken), d, more, rfl, hd, ?_⟩
    rw [all_of_first (first_of_append hfirst), htaken, hall]

end SchemaDiagram.Lexeme
