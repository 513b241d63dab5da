import SchemaDiagram.Proofs.Text.Blank

/-!
# SchemaDiagram.Proofs.Text.Squeeze

A text with its blanks squeezed.

```
␣timestamp␣␣with time zone␣      timestamp_with_time_zone
```

1. `squeeze` writes one low line for every run of blanks; `trim` drops the runs at both ends.
2. The words of a text, joined by low lines, are the text so treated (`intercalate_words`).
3. What is left has no blank (`isBlank_of_mem_squeeze`), and something is left of every text that is
   not all blank (`squeeze_eq_nil`, `trim_eq_nil`).
-/

namespace SchemaDiagram.Text

/-! ## Runs of blanks -/

/-- Writes a low line for every run of blanks. -/
def squeeze : List Char → List Char
  | [] => []
  | c :: cs => if isBlank c then '_' :: squeeze (cs.dropWhile isBlank) else c :: squeeze cs
termination_by cs => cs.length
decreasing_by
  · exact length_dropWhile_lt isBlank c cs
  · simp

variable {c : Char} {cs ys : List Char}

/-- A run of blanks is one low line. -/
theorem squeeze_of_blank (hc : isBlank c = true) (cs : List Char) :
    squeeze (c :: cs) = '_' :: squeeze (cs.dropWhile isBlank) := by
  rw [squeeze, if_pos hc]

/-- The blanks at the beginning are one run. -/
theorem squeeze_eq_append (cs : List Char) :
    squeeze cs =
      (if cs.head?.any isBlank then ['_'] else []) ++ squeeze (cs.dropWhile isBlank) := by
  cases cs with
  | nil => rfl
  | cons c cs =>
    by_cases hc : isBlank c = true
    · simp [squeeze_of_blank hc, hc]
    · simp [hc]

/-- What is not blank stays. -/
theorem squeeze_append (h : ∀ c ∈ cs, isBlank c = false) (ys : List Char) :
    squeeze (cs ++ ys) = cs ++ squeeze ys := by
  induction cs with
  | nil => rfl
  | cons c cs ih =>
    have hc : ¬ isBlank c = true := by simp [h c List.mem_cons_self]
    rw [List.cons_append, squeeze, if_neg hc, ih fun d hd => h d (List.mem_cons_of_mem c hd),
      List.cons_append]

/-- There are no blanks in what is written. -/
theorem isBlank_of_mem_squeeze (cs : List Char) : ∀ c ∈ squeeze cs, isBlank c = false := by
  fun_induction squeeze cs with
  | case1 => simp
  | case2 d cs hd ih =>
    rintro c (_ | ⟨_, hc⟩)
    · decide
    · exact ih c hc
  | case3 d cs hd ih =>
    rintro c (_ | ⟨_, hc⟩)
    · simpa using hd
    · exact ih c hc

/-- Only of the empty text nothing is written. -/
theorem squeeze_eq_nil : squeeze cs = [] ↔ cs = [] := by
  cases cs with
  | nil => simp [squeeze]
  | cons c cs =>
    rw [squeeze]
    split <;> simp

/-! ## Trimming and words -/

/-- A text is what is left of it by trimming, and blanks around that. -/
theorem exists_around_trim (cs : List Char) :
    ∃ before after, (∀ c ∈ before, isBlank c = true) ∧ (∀ c ∈ after, isBlank c = true) ∧
      cs = before ++ (trim cs ++ after) := by
  refine ⟨cs.takeWhile isBlank, ((cs.dropWhile isBlank).reverse.takeWhile isBlank).reverse, ?_, ?_,
    ?_⟩
  · exact fun c hc => List.mem_takeWhile_imp hc
  · exact fun c hc => List.mem_takeWhile_imp (List.mem_reverse.1 hc)
  · rw [trim, ← List.reverse_append, List.takeWhile_append_dropWhile, List.reverse_reverse,
      List.takeWhile_append_dropWhile]

/-- What is left by trimming does not end with a blank. -/
theorem isBlank_getLast?_trim (cs : List Char) : ∀ c ∈ (trim cs).getLast?, isBlank c = false := by
  rw [trim, List.getLast?_reverse]
  exact head?_dropWhile_eq isBlank _

/-- Nor does it begin with one. -/
theorem isBlank_head?_trim (cs : List Char) : ∀ c ∈ (trim cs).head?, isBlank c = false := by
  have hprefix : trim cs <+: cs.dropWhile isBlank := by
    rw [← List.reverse_suffix, trim, List.reverse_reverse]
    exact List.dropWhile_suffix _
  obtain ⟨after, hafter⟩ := hprefix
  intro c hc
  refine head?_dropWhile_eq isBlank cs c ?_
  rw [← hafter, List.head?_append, Option.mem_def.1 hc]
  rfl

/-- Nothing is left by trimming exactly of a blank text. -/
theorem trim_eq_nil : trim cs = [] ↔ isAllBlank cs = true := by
  rw [isAllBlank, List.all_eq_true]
  constructor
  · intro h
    obtain ⟨before, after, hbefore, hafter, hcs⟩ := exists_around_trim cs
    rw [hcs, h]
    exact fun c hc => (List.mem_append.1 hc).elim (hbefore c) (hafter c)
  · intro h
    rw [trim, List.dropWhile_eq_nil_iff.2 h]
    rfl

/-- Blanks in front of a text are not in its words. -/
theorem words_blank_append (h : ∀ c ∈ cs, isBlank c = true) (ys : List Char) :
    words (cs ++ ys) = words ys := by
  induction cs with
  | nil => rfl
  | cons c cs ih =>
    rw [List.cons_append, words, if_pos (h c List.mem_cons_self),
      ih fun d hd => h d (List.mem_cons_of_mem c hd)]

/-- Blanks behind a text are not in its words. -/
theorem words_append_blanks (h : ∀ c ∈ ys, isBlank c = true) (cs : List Char) :
    words (cs ++ ys) = words cs := by
  cases ys with
  | nil => rw [List.append_nil]
  | cons c ys =>
    have hys := words_blank_append (fun d hd => h d (List.mem_cons_of_mem c hd)) []
    rw [List.append_nil, words] at hys
    rw [words_append_blank (h c List.mem_cons_self), hys, List.append_nil]

/-- Blanks around a text are not in its words. -/
theorem words_trim (cs : List Char) : words (trim cs) = words cs := by
  obtain ⟨before, after, hbefore, hafter, hcs⟩ := exists_around_trim cs
  calc words (trim cs) = words (before ++ (trim cs ++ after)) := by
        rw [words_blank_append hbefore, words_append_blanks hafter]
    _ = words cs := congrArg words hcs.symm

/-- A text that does not end with a blank has a word. -/
theorem words_ne_nil (hne : cs ≠ []) (hlast : ∀ c ∈ cs.getLast?, isBlank c = false) :
    words cs ≠ [] := by
  fun_induction words cs with
  | case1 => contradiction
  | case2 c cs hc ih =>
    cases cs with
    | nil => simp [hlast c rfl] at hc
    | cons d cs => exact ih (List.cons_ne_nil d cs) (by simpa using hlast)
  | case3 => exact List.cons_ne_nil _ _

/-- The words of a text are joined where they are parted, with one more low line for blanks in front
of them. -/
theorem squeeze_eq_append_intercalate (hlast : ∀ c ∈ cs.getLast?, isBlank c = false) :
    squeeze cs = (if cs.head?.any isBlank then ['_'] else []) ++ ['_'].intercalate (words cs) := by
  fun_induction words cs with
  | case1 => rw [squeeze]; rfl
  | case2 c cs hc ih =>
    have hcs : ∀ d ∈ cs.getLast?, isBlank d = false := fun d hd =>
      hlast d (by rw [List.getLast?_cons, Option.mem_def.1 hd]; rfl)
    have hdrop := ih hcs
    rw [squeeze_eq_append] at hdrop
    rw [squeeze_of_blank hc, List.append_cancel_left hdrop]
    simp [hc]
  | case3 c cs hc ih =>
    -- behind the first word there is nothing, or a run of blanks and another word
    have hword : ∀ d ∈ c :: cs.takeWhile (!isBlank ·), isBlank d = false := by
      rintro d (_ | ⟨_, hd⟩)
      · simpa using hc
      · simpa using List.mem_takeWhile_imp hd
    have hsplit : c :: cs.takeWhile (!isBlank ·) ++ cs.dropWhile (!isBlank ·) = c :: cs := by
      rw [List.cons_append, List.takeWhile_append_dropWhile]
    have hrest : ∀ d ∈ (cs.dropWhile (!isBlank ·)).getLast?, isBlank d = false := fun d hd =>
      hlast d (by rw [← hsplit, List.getLast?_append, Option.mem_def.1 hd]; rfl)
    have hsqueeze := squeeze_append hword (cs.dropWhile (!isBlank ·))
    rw [hsplit, ih hrest] at hsqueeze
    rw [hsqueeze]
    have hhead := List.head?_dropWhile_not (!isBlank ·) cs
    cases hcases : cs.dropWhile (!isBlank ·) with
    | nil => simp [hc, words]
    | cons b gap =>
      rw [hcases] at hrest hhead
      have hb : isBlank b = true := by simpa using hhead
      obtain ⟨w, ws, hws⟩ :=
        List.exists_cons_of_ne_nil (words_ne_nil (List.cons_ne_nil b gap) hrest)
      rw [hws, List.intercalate_cons_cons]
      simp [hb, hc]

/-- Words joined by low lines are the text, trimmed and squeezed. -/
theorem intercalate_words (cs : List Char) : ['_'].intercalate (words cs) = squeeze (trim cs) := by
  have hfirst : (trim cs).head?.any isBlank = false :=
    (Option.any_eq_false _ _).2 (isBlank_head?_trim cs)
  rw [squeeze_eq_append_intercalate (isBlank_getLast?_trim cs), hfirst, words_trim]
  rfl

end SchemaDiagram.Text
