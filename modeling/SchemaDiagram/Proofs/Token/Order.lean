import SchemaDiagram.Token.Lexing

/-!
# SchemaDiagram.Proofs.Token.Order

The tokens of a text stand one behind the other.

A piece of a text has at least one character, so the position behind it is a later one
(`Position.Before`), and no two tokens share a position.  This holds for every text, up to the end
of it or to the first fault.
-/

namespace SchemaDiagram

namespace Position

/-! ## Earlier and later positions -/

/-- The first position is on an earlier line or further to the left on the same one. -/
def Before (p q : Position) : Prop := p.line < q.line ∨ p.line = q.line ∧ p.column < q.column

theorem Before.trans {p q r : Position} (h : p.Before q) (h' : q.Before r) : p.Before r := by
  unfold Before at *
  omega

theorem Before.ne {p q : Position} (h : p.Before q) : p ≠ q := by
  rintro rfl
  unfold Before at h
  omega

theorem before_next (p : Position) (c : Char) : p.Before (p.next c) := by
  unfold next Before
  split <;> simp

/-- Behind some characters a position is later. -/
theorem before_after (p : Position) {cs : List Char} (h : cs ≠ []) : p.Before (p.after cs) := by
  induction cs generalizing p with
  | nil => contradiction
  | cons c cs ih =>
    cases cs with
    | nil => exact before_next p c
    | cons d cs => exact (before_next p c).trans (ih (p.next c) (List.cons_ne_nil d cs))

end Position

/-! ## Pieces and tokens -/

namespace Lexeme

/-- Every piece has a character. -/
theorem text_ne_nil_of_mem_all {cs : List Char} {l : Lexeme} (h : l ∈ (all cs).1) : l.text ≠ [] := by
  fun_induction all cs with
  | case1 => simp at h
  | case2 => simp at h
  | case3 c cs l' rest hfirst _ ls fault hall ih =>
    rcases List.mem_cons.1 h with rfl | hmem
    · exact text_ne_nil_of_first hfirst
    · exact ih (by rw [hall]; exact hmem)

/-- The tokens of pieces stand one behind the other, the first one not before the first piece. -/
theorem pairwise_located (p : Position) {ls : List Lexeme} (h : ∀ l ∈ ls, l.text ≠ []) :
    ((located p ls).map (·.position) ++ [finish p ls]).Pairwise Position.Before ∧
      ∀ q ∈ (located p ls).map (·.position) ++ [finish p ls], q = p ∨ p.Before q := by
  induction ls generalizing p with
  | nil => simp [located, finish]
  | cons l ls ih =>
    obtain ⟨hpairwise, hfrom⟩ :=
      ih (p.after l.text) fun l' hl' => h l' (List.mem_cons_of_mem l hl')
    have hlater := Position.before_after p (h l List.mem_cons_self)
    have hbefore : ∀ q ∈ (located (p.after l.text) ls).map (·.position) ++
        [finish (p.after l.text) ls], p.Before q := fun q hq => by
      rcases hfrom q hq with rfl | hq
      · exact hlater
      · exact hlater.trans hq
    rw [located, finish]
    cases l.token with
    | none => exact ⟨hpairwise, fun q hq => .inr (hbefore q hq)⟩
    | some t =>
      refine ⟨List.pairwise_cons.2 ⟨hbefore, hpairwise⟩, fun q hq => ?_⟩
      rcases List.mem_cons.1 hq with rfl | hq
      · exact .inl rfl
      · exact .inr (hbefore q hq)

end Lexeme

/-- No two tokens of a text share a position, and none stands where the reading stopped. -/
theorem Lexing.nodup_positions (source : String) :
    ((of source).tokens.map (·.position) ++ [(of source).finish]).Nodup :=
  (Lexeme.pairwise_located .start fun _ => Lexeme.text_ne_nil_of_mem_all).1.imp fun h => h.ne

end SchemaDiagram
