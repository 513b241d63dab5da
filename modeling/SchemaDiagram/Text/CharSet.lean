/-!
# SchemaDiagram.Text.CharSet

Sets of characters given by ranges of code points, the form in which Unicode publishes its
properties.  The tables that use it stand in modules named for the property they hold.
-/

namespace SchemaDiagram.Text

namespace CharSet

/-- Whether ranges are in increasing order, with both ends of each. -/
def isIncreasing : List (Nat × Nat) → Bool
  | [] => true
  | [(first, last)] => first ≤ last
  | (first, last) :: next :: rest =>
    first ≤ last && last < next.1 && isIncreasing (next :: rest)

/-- Whether a code point lies in one of the ranges.  The ranges increase, so the search is over at
the first one that begins beyond it. -/
def covers (n : Nat) : List (Nat × Nat) → Bool
  | [] => false
  | (first, last) :: rest => first ≤ n && (n ≤ last || covers n rest)

end CharSet

/-- A set of characters: ranges of code points, both ends included, in increasing order. -/
structure CharSet where
  ranges : List (Nat × Nat)
  increasing : CharSet.isIncreasing ranges = true := by decide +kernel

namespace CharSet

/-- Membership of a character. -/
def contains (s : CharSet) (c : Char) : Bool := covers c.toNat s.ranges

/-- Behind the first of increasing ranges all of them begin beyond it. -/
theorem lt_of_isIncreasing {first last : Nat} {rest : List (Nat × Nat)}
    (h : isIncreasing ((first, last) :: rest) = true) : ∀ r ∈ rest, last < r.1 := by
  induction rest generalizing first last with
  | nil => simp
  | cons next rest ih =>
    obtain ⟨a, b⟩ := next
    simp only [isIncreasing, Bool.and_eq_true, decide_eq_true_eq] at h
    have hab : a ≤ b := by
      cases rest <;> simp_all [isIncreasing]
    intro r hr
    rcases List.mem_cons.1 hr with rfl | hr
    · exact h.1.2
    · have := ih h.2 r hr
      omega

/-- The search finds a code point exactly if one of the ranges has it. -/
theorem covers_eq_true_iff {n : Nat} {ranges : List (Nat × Nat)}
    (h : isIncreasing ranges = true) :
    covers n ranges = true ↔ ∃ r ∈ ranges, r.1 ≤ n ∧ n ≤ r.2 := by
  induction ranges with
  | nil => simp [covers]
  | cons range rest ih =>
    obtain ⟨first, last⟩ := range
    have hrest : isIncreasing rest = true := by
      cases rest <;> simp_all [isIncreasing]
    have hlast : first ≤ last := by
      cases rest <;> simp_all [isIncreasing]
    have beyond := lt_of_isIncreasing h
    simp only [covers, Bool.and_eq_true, Bool.or_eq_true, decide_eq_true_eq, ih hrest,
      List.mem_cons, exists_eq_or_imp]
    constructor
    · rintro ⟨hf, hl | hr⟩
      · exact .inl ⟨hf, hl⟩
      · exact .inr hr
    · rintro (⟨hf, hl⟩ | ⟨r, hr, hn⟩)
      · exact ⟨hf, .inl hl⟩
      · have := beyond r hr
        exact ⟨by omega, .inr ⟨r, hr, hn⟩⟩

/-- A character is in the set exactly if one of the ranges has it. -/
theorem contains_eq_true_iff {s : CharSet} {c : Char} :
    s.contains c = true ↔ ∃ r ∈ s.ranges, r.1 ≤ c.toNat ∧ c.toNat ≤ r.2 :=
  covers_eq_true_iff s.increasing

end CharSet

end SchemaDiagram.Text
