import Mathlib.Data.List.TakeWhile
import SchemaDiagram.Text.Blank

/-!
# SchemaDiagram.Proofs.Text.Blank

What a test splits off a text, what trimming leaves of it and which words it has, said by how
the text is put together.
-/

namespace SchemaDiagram.Text

/-! ## Splitting by a test -/

/-- The characters of a text are other than one that is not in it. -/
theorem bne_of_not_mem {d : Char} {cs : List Char} (h : d ∉ cs) : ∀ c ∈ cs, (c != d) = true :=
  fun c hc => by
    rw [bne_iff_ne]
    exact fun he => h (he ▸ hc)

/-- Dropping stops at the latest before a text whose first character fails the test. -/
theorem dropWhile_append_of_head {p : Char → Bool} {ys : List Char}
    (h : ∀ c ∈ ys.head?, p c = false) (xs : List Char) :
    (xs ++ ys).dropWhile p = xs.dropWhile p ++ ys := by
  induction xs with
  | nil =>
    cases ys with
    | nil => rfl
    | cons c ys =>
      have hc : p c = false := h c rfl
      simp [hc]
  | cons x xs ih =>
    by_cases hx : p x = true
    · simpa [hx] using ih
    · simp [hx]

/-- Taking stops there as well. -/
theorem takeWhile_append_of_head {p : Char → Bool} {ys : List Char}
    (h : ∀ c ∈ ys.head?, p c = false) (xs : List Char) :
    (xs ++ ys).takeWhile p = xs.takeWhile p := by
  induction xs with
  | nil =>
    cases ys with
    | nil => rfl
    | cons c ys =>
      have hc : p c = false := h c rfl
      simp [hc]
  | cons x xs ih =>
    by_cases hx : p x = true
    · simpa [hx] using ih
    · simp [hx]

/-- Dropping stops at a character that fails the test. -/
theorem head?_dropWhile_eq (p : Char → Bool) (cs : List Char) :
    ∀ c ∈ (cs.dropWhile p).head?, p c = false := by
  intro c hc
  have hstop := List.head?_dropWhile_not p cs
  rwa [Option.mem_def.1 hc] at hstop

/-! ## Trimming -/

/-- A text without blanks at its ends stays when it is trimmed, and so does some of what follows. -/
theorem exists_trim_eq {before text : List Char} (hbefore : ∀ c ∈ before, isBlank c = true)
    (hfirst : ∀ c ∈ text.head?, isBlank c = false) (hlast : ∀ c ∈ text.getLast?, isBlank c = false)
    (hne : text ≠ []) (after : List Char) :
    ∃ kept, kept <+: after ∧ trim (before ++ (text ++ after)) = text ++ kept := by
  have hhead : ∀ c ∈ (text ++ after).head?, isBlank c = false := by
    cases text with
    | nil => exact absurd rfl hne
    | cons c text => exact hfirst
  refine ⟨(after.reverse.dropWhile isBlank).reverse, ?_, ?_⟩
  · rw [← List.reverse_suffix, List.reverse_reverse]
    exact List.dropWhile_suffix _
  · rw [trim, dropWhile_append_of_head hhead, List.dropWhile_eq_nil_iff.2 hbefore, List.nil_append,
      List.reverse_append, dropWhile_append_of_head (by simpa using hlast), List.reverse_append,
      List.reverse_reverse]

/-- A blank at the end is trimmed. -/
theorem trim_append_singleton (xs : List Char) {c : Char} (hc : isBlank c = true) :
    trim (xs ++ [c]) = trim xs := by
  rw [trim, trim, List.dropWhile_append]
  split
  · rename_i hempty
    rw [List.isEmpty_iff.1 hempty, List.dropWhile_cons_of_pos hc]
    rfl
  · rw [List.reverse_append, List.reverse_singleton, List.singleton_append,
      List.dropWhile_cons_of_pos hc]

/-! ## Words -/

/-- A blank parts words. -/
theorem words_append_blank {c : Char} (hc : isBlank c = true) (xs ys : List Char) :
    words (xs ++ c :: ys) = words xs ++ words ys := by
  have hstop : ∀ d ∈ (c :: ys).head?, (!isBlank d) = false := by
    intro d hd
    cases hd
    simp [hc]
  fun_induction words xs with
  | case1 => rw [List.nil_append, words, if_pos hc, List.nil_append]
  | case2 x xs hx ih => rw [List.cons_append, words, if_pos hx, ih]
  | case3 x xs hx ih =>
    rw [List.cons_append, words, if_neg hx, takeWhile_append_of_head hstop,
      dropWhile_append_of_head hstop, ih, List.cons_append]

/-- A text without blanks is one word. -/
theorem words_of_not_blank {text : List Char} (hne : text ≠ [])
    (h : ∀ c ∈ text, isBlank c = false) : words text = [text] := by
  cases text with
  | nil => contradiction
  | cons c text =>
    have hrest : ∀ d ∈ text, (!isBlank d) = true := fun d hd => by
      simp [h d (List.mem_cons_of_mem c hd)]
    have hc : ¬ isBlank c = true := by simp [h c List.mem_cons_self]
    rw [words, if_neg hc, List.dropWhile_eq_nil_iff.2 hrest, List.takeWhile_eq_self_iff.2 hrest,
      words]

/-- A text without blanks is a word where blanks or ends of the text are around it. -/
theorem mem_words {before text after : List Char} (hne : text ≠ [])
    (h : ∀ c ∈ text, isBlank c = false) (hbefore : ∀ c ∈ before.getLast?, isBlank c = true)
    (hafter : ∀ c ∈ after.head?, isBlank c = true) : text ∈ words (before ++ (text ++ after)) := by
  have hbehind : text ∈ words (text ++ after) := by
    cases after with
    | nil => simp [words_of_not_blank hne h]
    | cons c after =>
      rw [words_append_blank (hafter c rfl), words_of_not_blank hne h]
      exact List.mem_append_left _ (List.mem_singleton_self text)
  rcases List.eq_nil_or_concat before with rfl | ⟨before, c, rfl⟩
  · exact hbehind
  · rw [List.concat_eq_append] at hbefore ⊢
    rw [List.append_assoc, List.singleton_append, words_append_blank (hbefore c (by simp))]
    exact List.mem_append_right _ hbehind

end SchemaDiagram.Text
