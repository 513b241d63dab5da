import SchemaDiagram.Text.LowerCase

/-!
# SchemaDiagram.Proofs.Text.LowerCase

The lower case of a part of a text.

The capital sigma makes the lower case of a text depend on what stands around it.  It depends no
further than to the next character that is neither cased nor case-ignorable (`PartsWords`), on
either side.
-/

namespace SchemaDiagram.Text

/-- A character across which no sigma looks. -/
def PartsWords (c : Char) : Prop := cased.contains c = false ∧ caseIgnorable.contains c = false

instance (c : Char) : Decidable (PartsWords c) :=
  inferInstanceAs (Decidable (_ ∧ _))

section

variable {xs ys : List Char}

/-- What stands behind a character that parts words is not looked at. -/
theorem beginsCased_append (h : ∀ c ∈ ys.head?, PartsWords c) (xs : List Char) :
    beginsCased (xs ++ ys) = beginsCased xs := by
  induction xs with
  | nil =>
    cases ys with
    | nil => rfl
    | cons c ys =>
      obtain ⟨hcased, hignorable⟩ := h c rfl
      simp [beginsCased, hcased, hignorable]
  | cons x xs ih =>
    unfold beginsCased at ih ⊢
    by_cases hx : caseIgnorable.contains x = true
    · simpa [List.dropWhile_cons_of_pos hx] using ih
    · simp [List.dropWhile_cons_of_neg hx]

/-- The lower case of two texts that are parted is that of each. -/
theorem lowerAfter_append (h : ∀ c ∈ ys.head?, PartsWords c) (before xs : List Char) :
    lowerAfter before (xs ++ ys) = lowerAfter before xs ++ lowerAfter (xs.reverse ++ before) ys := by
  induction xs generalizing before with
  | nil => rfl
  | cons x xs ih =>
    rw [List.cons_append, lowerAfter, lowerAfter, ih, endsWord, beginsCased_append h, ← endsWord]
    simp

/-- What stands before a text counts up to where it is parted from more. -/
theorem lowerAfter_append_before {more : List Char} (h : ∀ c ∈ more.head?, PartsWords c)
    (before xs : List Char) : lowerAfter (before ++ more) xs = lowerAfter before xs := by
  induction xs generalizing before with
  | nil => rfl
  | cons x xs ih =>
    rw [lowerAfter, lowerAfter, endsWord, beginsCased_append h, ← endsWord, ← List.cons_append, ih]

/-- A text that is parted from what follows has its own lower case. -/
theorem lower_isPrefix (h : ∀ c ∈ ys.head?, PartsWords c) (xs : List Char) :
    lower xs <+: lower (xs ++ ys) := by
  rw [lower, lower, lowerAfter_append h]
  exact List.prefix_append _ _

/-- Two words with a space between them have their own lower cases. -/
theorem lower_append_space (xs ys : List Char) :
    lower (xs ++ ' ' :: ys) = lower xs ++ ' ' :: lower ys := by
  have hspace : ∀ zs : List Char, ∀ c ∈ (' ' :: zs).head?, PartsWords c := by
    intro zs c hc
    cases hc
    decide
  rw [lower, lowerAfter_append (hspace ys), lowerAfter, if_neg (by decide), List.append_nil]
  have hys : lowerAfter ([] ++ ' ' :: xs.reverse) ys = lowerAfter [] ys :=
    lowerAfter_append_before (hspace _) [] ys
  rw [List.nil_append] at hys
  rw [hys]
  rfl

end

/-! ## Spaces -/

/-- A character that a run maps is mapped to the first image of the run or behind it. -/
theorem CaseRun.exists_of_lookup {n m : Nat} {runs : List CaseRun} (h : lookup n runs = some m) :
    ∃ r ∈ runs, r.image ≤ m := by
  fun_induction lookup n runs with
  | case1 => contradiction
  | case2 => contradiction
  | case3 r runs =>
    cases h
    exact ⟨r, List.mem_cons_self, Nat.le_add_right ..⟩
  | case4 r runs _ _ ih =>
    obtain ⟨r', hr', hle⟩ := ih h
    exact ⟨r', List.mem_cons_of_mem r hr', hle⟩

/-- No number above that of the space is a space. -/
theorem ofNat_ne_space {n : Nat} (h : 0x20 < n) : Char.ofNat n ≠ ' ' := by
  intro he
  have hnat : (Char.ofNat n).toNat = 0x20 := congrArg Char.toNat he
  by_cases hvalid : n.isValidChar
  · rw [Char.ofNat, dif_pos hvalid] at hnat
    change n = 0x20 at hnat
    omega
  · rw [Char.ofNat, dif_neg hvalid] at hnat
    contradiction

/-- No character but the space has a space in its lower case. -/
theorem space_not_mem_lowerChar {c : Char} (hc : c ≠ ' ') : ' ' ∉ lowerChar c := by
  unfold lowerChar
  split
  · decide
  · split
    · rename_i m hm
      obtain ⟨r, hr, hle⟩ := CaseRun.exists_of_lookup hm
      have himage : ∀ r ∈ caseRuns, 0x20 < r.image := by decide +kernel
      have hlt : 0x20 < m := Nat.lt_of_lt_of_le (himage r hr) hle
      exact fun hmem => ofNat_ne_space hlt (List.mem_singleton.1 hmem).symm
    · exact fun hmem => hc (List.mem_singleton.1 hmem).symm

/-- A text without spaces has none in its lower case. -/
theorem space_not_mem_lower {cs : List Char} (h : ' ' ∉ cs) : ' ' ∉ lower cs := by
  suffices hall : ∀ before, ' ' ∉ lowerAfter before cs from hall []
  induction cs with
  | nil => exact fun _ => List.not_mem_nil
  | cons c cs ih =>
    rw [List.mem_cons, not_or] at h
    intro before
    rw [lowerAfter, List.mem_append, not_or]
    refine ⟨?_, ih h.2 _⟩
    split
    · split <;> decide
    · exact space_not_mem_lowerChar (Ne.symm h.1)

/-! ## ASCII -/

/-- The lower case of an ASCII character is the one that keywords are compared in. -/
theorem lowerChar_of_lt {c : Char} (h : c.toNat < 128) : lowerChar c = [c.toLower] ∧ c ≠ 'Σ' := by
  have hall : ∀ n : Fin 128, lowerChar (Char.ofNat n) = [(Char.ofNat n).toLower] ∧
      Char.ofNat n ≠ 'Σ' := by decide +kernel
  have hc := hall ⟨c.toNat, h⟩
  rwa [Char.ofNat_toNat] at hc

/-- The lower case of ASCII characters is the one that keywords are compared in, whatever stands
before them. -/
theorem lowerAfter_of_lt {cs : List Char} (h : ∀ c ∈ cs, c.toNat < 128) (before : List Char) :
    lowerAfter before cs = lowerAscii cs := by
  induction cs generalizing before with
  | nil => rfl
  | cons c cs ih =>
    obtain ⟨hc, hsigma⟩ := lowerChar_of_lt (h c List.mem_cons_self)
    rw [lowerAfter, if_neg hsigma, hc, ih fun d hd => h d (List.mem_cons_of_mem c hd)]
    rfl

/-- Only ASCII characters have an ASCII letter for their lower case, as far as ASCII goes. -/
theorem toNat_lt_of_toLower {c : Char} (h : c.toLower.toNat < 128) : c.toNat < 128 := by
  unfold Char.toLower at h
  split at h
  · rename_i hupper
    have hle : c.toNat ≤ 90 := UInt32.le_iff_toNat_le.1 hupper.2
    omega
  · exact h

/-- What is a keyword in any case is that keyword in lower case. -/
theorem lower_of_lowerAscii {cs word : List Char} (h : lowerAscii cs = word)
    (hword : word.all (·.toNat < 128) = true) : lower cs = word := by
  subst h
  refine lowerAfter_of_lt (fun c hc => ?_) []
  have hlower := List.all_eq_true.1 hword c.toLower (List.mem_map_of_mem hc)
  exact toNat_lt_of_toLower (of_decide_eq_true hlower)

end SchemaDiagram.Text
