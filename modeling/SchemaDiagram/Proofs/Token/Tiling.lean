import Mathlib.Data.List.Induction
import SchemaDiagram.Proofs.Token.Spelling
import SchemaDiagram.Token.Lexing

/-!
# SchemaDiagram.Proofs.Token.Tiling

A text whose reading ends without a fault falls into tokens and the gaps between them, and every
position is the place of its token in the text:

```
text = gap₀ lexeme₁ gap₁ … lexemeₙ gapₙ
```

Nothing is left out and nothing belongs to two pieces, because the pieces in their order are the
text.  A position is said by counting (`Position.behind`), not by walking through the text.
-/

namespace SchemaDiagram

/-! ## Positions by counting -/

namespace Position

/-- The position behind a text: as many lines down as it has line feeds, and as many columns on as
it has characters since the last of them. -/
def behind (cs : List Char) : Position :=
  ⟨1 + cs.count '\n', 1 + (cs.reverse.takeWhile (· != '\n')).length⟩

theorem behind_nil : behind [] = start := rfl

/-- One more character moves the position on by it. -/
theorem behind_append_singleton (cs : List Char) (c : Char) :
    behind (cs ++ [c]) = (behind cs).next c := by
  by_cases hc : c = '\n'
  · subst hc
    simp [behind, next, Nat.add_assoc]
  · simp [behind, next, hc, Nat.add_assoc]

/-- Walking through a text counts its lines and columns. -/
theorem after_start (cs : List Char) : start.after cs = behind cs := by
  induction cs using List.reverseRecOn with
  | nil => rfl
  | append_singleton cs c ih =>
    rw [after_append, ih, behind_append_singleton]
    rfl

theorem after_behind (xs cs : List Char) : (behind xs).after cs = behind (xs ++ cs) := by
  rw [← after_start, ← after_start, after_append]

end Position

/-! ## Tiles -/

/-- A token in its place: the gap before it and the characters it is written with. -/
structure Tile where
  gap : List Char
  lexeme : List Char
  token : Located

/-- The characters of a tile. -/
def Tile.text (t : Tile) : List Char := t.gap ++ t.lexeme

/-- Tiles and a last gap that make up a text, which stands behind the text `before`. -/
structure Tiling (before cs : List Char) (tiles : List Tile) (last : List Char) : Prop where
  text : cs = tiles.flatMap (·.text) ++ last
  gap : ∀ xs t ys, tiles = xs ++ t :: ys → Gap (t.lexeme ++ (ys.flatMap (·.text) ++ last)) t.gap
  spells : ∀ t ∈ tiles, Spells t.token.token t.lexeme
  position : ∀ xs t ys, tiles = xs ++ t :: ys →
    t.token.position = .behind (before ++ (xs.flatMap (·.text) ++ t.gap))
  last : Gap [] last

namespace Tiling

variable {before cs : List Char} {tiles : List Tile} {last : List Char}

theorem nil (before : List Char) : Tiling before [] [] [] where
  text := rfl
  gap := by simp
  spells := by simp
  position := by simp
  last := .nil

/-- A token in front of a tiling is a tile without a gap. -/
theorem cons_token (h : Tiling (before ++ lexeme) cs tiles last) (hs : Spells t lexeme) :
    Tiling before (lexeme ++ cs) (⟨[], lexeme, ⟨t, .behind before⟩⟩ :: tiles) last where
  text := by simp [Tile.text, h.text]
  gap := by
    intro xs u ys he
    cases xs with
    | nil => cases he; exact .nil
    | cons x xs => cases he; exact h.gap xs u ys rfl
  spells := by
    intro u hu
    rcases List.mem_cons.1 hu with rfl | hu
    · exact hs
    · exact h.spells u hu
  position := by
    intro xs u ys he
    cases xs with
    | nil => cases he; simp
    | cons x xs => cases he; simp [h.position xs u ys rfl, Tile.text]
  last := h.last

/-- A gap in front of a tiling goes to its first tile, or to the gap at its end. -/
theorem prepend_gap (h : Tiling (before ++ g) cs tiles last)
    (hg : ∀ gap after, cs = gap ++ after → Gap after gap → Gap after (g ++ gap)) :
    ∃ tiles' last', tiles'.map (·.token) = tiles.map (·.token) ∧
      Tiling before (g ++ cs) tiles' last' := by
  cases tiles with
  | nil =>
    refine ⟨[], g ++ last, rfl, ?_, by simp, by simp, by simp, ?_⟩
    · simpa using h.text
    · exact hg last [] (by simpa using h.text) h.last
  | cons t tiles =>
    refine ⟨⟨g ++ t.gap, t.lexeme, t.token⟩ :: tiles, last, rfl, ?_, ?_, ?_, ?_, h.last⟩
    · simp [Tile.text, h.text]
    · intro xs u ys he
      cases xs with
      | nil =>
        cases he
        refine hg _ _ ?_ (h.gap [] t tiles rfl)
        simp [Tile.text, h.text]
      | cons x xs => cases he; exact h.gap (t :: xs) u ys rfl
    · intro u hu
      rcases List.mem_cons.1 hu with rfl | hu
      · exact h.spells t List.mem_cons_self
      · exact h.spells u (List.mem_cons_of_mem t hu)
    · intro xs u ys he
      cases xs with
      | nil =>
        cases he
        simpa using h.position [] t tiles rfl
      | cons x xs =>
        cases he
        simpa [Tile.text] using h.position (t :: xs) u ys rfl

/-- The characters of a token stand at its position. -/
theorem exists_lexeme_of_mem (h : Tiling [] cs tiles last) {t : Tile} (ht : t ∈ tiles) :
    ∃ before after, cs = before ++ (t.lexeme ++ after) ∧ t.token.position = .behind before ∧
      Spells t.token.token t.lexeme := by
  obtain ⟨xs, ys, htiles⟩ := List.append_of_mem ht
  refine ⟨xs.flatMap (·.text) ++ t.gap, ys.flatMap (·.text) ++ last, ?_, ?_, h.spells t ht⟩
  · rw [h.text, htiles]
    simp [Tile.text]
  · rw [h.position xs t ys htiles, List.nil_append]

end Tiling

/-! ## The pieces of a text -/

namespace Lexeme

/-- The pieces of a text, taken one after the other, give a tiling of it. -/
theorem exists_tiling (before cs : List Char) (h : (all cs).2 = none) :
    ∃ tiles last, tiles.map (·.token) = located (.behind before) (all cs).1 ∧
      finish (.behind before) (all cs).1 = .behind (before ++ cs) ∧
      Tiling before cs tiles last := by
  fun_induction all cs generalizing before with
  | case1 => exact ⟨[], [], rfl, by simp [finish], .nil before⟩
  | case2 => simp at h
  | case3 c cs l rest hfirst _ ls fault hall ih =>
    obtain ⟨tiles, last, htokens, hfinish, htiling⟩ := ih (before ++ l.text) (by simpa [hall] using h)
    rw [hall] at htokens hfinish
    have hcs : c :: cs = l.text ++ rest := (append_of_first hfirst).symm
    have hbehind := Position.after_behind before l.text
    have hend : finish (.behind before) (l :: ls) = .behind (before ++ (c :: cs)) := by
      rw [finish, hbehind, hfinish, hcs, List.append_assoc]
    cases ht : l.token with
    | some t =>
      refine ⟨_, last, ?_, hend, hcs ▸ htiling.cons_token (spells_of_first hfirst ht)⟩
      rw [List.map_cons, htokens, located, hbehind, ht]
      rfl
    | none =>
      obtain ⟨tiles', last', hmap, htiling'⟩ := htiling.prepend_gap
        fun gap after hrest hgap => gap_append_of_first hfirst ht hrest hgap
      refine ⟨tiles', last', ?_, hend, hcs ▸ htiling'⟩
      rw [hmap, htokens, located, hbehind, ht]
      rfl

end Lexeme

/-- **Nothing is lost and every position is exact**: a text that is read without a fault is made up
of its tokens, each written in one of its ways, and of blanks and comments between them.  Each
token's position is that of its first character, and the reading ends behind the last one. -/
theorem Lexing.exists_tiling_of_fault_eq_none {source : String}
    (h : (Lexing.of source).fault = none) :
    ∃ tiles last, (Lexing.of source).tokens = tiles.map (·.token) ∧
      Tiling [] source.toList tiles last ∧
      (Lexing.of source).finish = .behind source.toList := by
  obtain ⟨tiles, last, htokens, hfinish, htiling⟩ := Lexeme.exists_tiling [] source.toList h
  exact ⟨tiles, last, htokens.symm, htiling, hfinish⟩

/-- A name, a comment and a quoted name: two tiles, the comment in the gap of the second. -/
theorem Lexing.exists_tiling_around_comment :
    (Lexing.of "a /* b */ \"c\\n\"\n").fault = none ∧
      ∃ tiles last, (Lexing.of "a /* b */ \"c\\n\"\n").tokens = tiles.map (·.token) ∧
        Tiling [] "a /* b */ \"c\\n\"\n".toList tiles last ∧
        (Lexing.of "a /* b */ \"c\\n\"\n").finish = .behind "a /* b */ \"c\\n\"\n".toList :=
  have h : (Lexing.of "a /* b */ \"c\\n\"\n").fault = none := by decide +kernel
  ⟨h, Lexing.exists_tiling_of_fault_eq_none h⟩

end SchemaDiagram
