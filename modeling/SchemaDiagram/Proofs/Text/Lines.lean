import SchemaDiagram.Proofs.Text.Blank
import SchemaDiagram.Proofs.Token.Tiling
import SchemaDiagram.Text.Lines

/-!
# SchemaDiagram.Proofs.Text.Lines

The lines of a text and the positions in it.

1. `WholeLines p` says that every line of `p` ends.  In front of any text such lines are lines of
   their own (`lines_append`), one for each line feed (`length_lines`).
2. Every text is whole lines and the beginning of one more, and these two say where it ends
   (`behind_append`).
3. So a character is found in the lines at its position, although a carriage return before a line
   feed is in none of them (`exists_line_at`).
-/

namespace SchemaDiagram.Text

/-! ## One line -/

/-- A line without the carriage return at its end. -/
def withoutReturn (line : List Char) : List Char :=
  if line.getLast? = some '\r' then line.dropLast else line

/-- A character in front of a line does not change how it ends. -/
theorem withoutReturn_cons {line : List Char} (h : line ≠ []) (c : Char) :
    withoutReturn (c :: line) = c :: withoutReturn line := by
  obtain ⟨d, ds, rfl⟩ := List.exists_cons_of_ne_nil h
  unfold withoutReturn
  rw [List.getLast?_cons_cons]
  split <;> rfl

/-- A line is the text up to its line feed. -/
theorem lines_line {line : List Char} (h : '\n' ∉ line) (cs : List Char) :
    lines (line ++ '\n' :: cs) = withoutReturn line :: lines cs := by
  induction line with
  | nil => rfl
  | cons c line ih =>
    have hc : c ≠ '\n' := fun he => h (he ▸ List.mem_cons_self)
    have hline : '\n' ∉ line := fun hn => h (List.mem_cons_of_mem c hn)
    cases line with
    | nil =>
      by_cases hr : c = '\r'
      · subst hr
        rfl
      · rw [List.singleton_append, lines]
        · simp [withoutReturn, consLine, lines, hr]
        · exact fun he => absurd he hc
        · exact fun _ he _ => absurd he hr
    | cons d line =>
      have hd : d ≠ '\n' := fun he => hline (he ▸ List.mem_cons_self)
      rw [withoutReturn_cons (List.cons_ne_nil d line), List.cons_append, lines, ih hline, consLine]
      · exact fun he => absurd he hc
      · exact fun _ _ he => absurd (List.cons.inj he).1 hd

/-- The last line of a text need not end. -/
theorem lines_of_not_mem {line : List Char} (h : '\n' ∉ line) (hne : line ≠ []) :
    lines line = [line] := by
  induction line with
  | nil => contradiction
  | cons c line ih =>
    have hc : c ≠ '\n' := fun he => h (he ▸ List.mem_cons_self)
    have hline : '\n' ∉ line := fun hn => h (List.mem_cons_of_mem c hn)
    rw [lines]
    · cases line with
      | nil => rfl
      | cons d line => rw [ih hline (List.cons_ne_nil d line), consLine]
    · exact fun he => absurd he hc
    · exact fun _ _ he => hline (he ▸ List.mem_cons_self)

/-! ## Whole lines -/

/-- A text whose last line ends. -/
inductive WholeLines : List Char → Prop
  | nil : WholeLines []
  | cons {line cs : List Char} : '\n' ∉ line → WholeLines cs → WholeLines (line ++ '\n' :: cs)

variable {p l cs : List Char}

/-- Lines that end are lines of their own in front of any text. -/
theorem lines_append (h : WholeLines p) (cs : List Char) : lines (p ++ cs) = lines p ++ lines cs := by
  induction h with
  | nil => rfl
  | cons hline _ ih =>
    rw [List.append_assoc, List.cons_append, lines_line hline, ih, lines_line hline,
      List.cons_append]

/-- Whole lines behind each other are whole lines. -/
theorem WholeLines.append {q : List Char} (hp : WholeLines p) (hq : WholeLines q) :
    WholeLines (p ++ q) := by
  induction hp with
  | nil => exact hq
  | cons hline _ ih =>
    rw [List.append_assoc, List.cons_append]
    exact .cons hline ih

/-- There are as many whole lines as line feeds. -/
theorem length_lines (h : WholeLines p) : (lines p).length = p.count '\n' := by
  induction h with
  | nil => rfl
  | cons hline _ ih =>
    rw [lines_line hline, List.length_cons, ih, List.count_append, List.count_cons_self,
      List.count_eq_zero.2 hline, Nat.zero_add]

/-- What stands behind whole lines are the lines from there on. -/
theorem drop_lines (h : WholeLines p) (cs : List Char) :
    (lines (p ++ cs)).drop (p.count '\n') = lines cs := by
  rw [lines_append h, ← length_lines h, List.drop_left]

/-- A text is whole lines and the beginning of one more. -/
theorem exists_wholeLines (cs : List Char) : ∃ p l, cs = p ++ l ∧ WholeLines p ∧ '\n' ∉ l := by
  induction cs with
  | nil => exact ⟨[], [], rfl, .nil, by simp⟩
  | cons c cs ih =>
    obtain ⟨p, l, rfl, hp, hl⟩ := ih
    by_cases hc : c = '\n'
    · subst hc
      have hempty : WholeLines ([] ++ '\n' :: p) := .cons List.not_mem_nil hp
      exact ⟨'\n' :: p, l, rfl, hempty, hl⟩
    cases hp with
    | nil => exact ⟨[], c :: l, rfl, .nil, by simp [Ne.symm hc, hl]⟩
    | @cons line p hline hp =>
      exact ⟨(c :: line) ++ '\n' :: p, l, rfl, .cons (by simp [Ne.symm hc, hline]) hp, hl⟩

/-- A property of all texts, shown line by line from the last one up. -/
@[elab_as_elim] theorem induction_lines {motive : List Char → Prop}
    (last : ∀ line, '\n' ∉ line → motive line)
    (line : ∀ line cs, '\n' ∉ line → motive cs → motive (line ++ '\n' :: cs)) (cs : List Char) :
    motive cs := by
  obtain ⟨p, l, rfl, hp, hl⟩ := exists_wholeLines cs
  induction hp with
  | nil => exact last l hl
  | cons hline _ ih =>
    rw [List.append_assoc, List.cons_append]
    exact line _ _ hline ih

/-! ## Positions -/

/-- Whole lines end with a line feed. -/
theorem WholeLines.getLast?_eq (h : WholeLines p) : ∀ c ∈ p.getLast?, c = '\n' := by
  induction h with
  | nil => simp
  | @cons line cs _ _ ih =>
    intro c hc
    cases cs with
    | nil => simpa using hc.symm
    | cons d cs =>
      rw [List.getLast?_append, List.getLast?_cons_cons] at hc
      exact ih c (by simpa using hc)

/-- A text that ends with a line feed is whole lines. -/
theorem wholeLines_of_getLast? (h : ∀ c ∈ cs.getLast?, c = '\n') : WholeLines cs := by
  obtain ⟨p, l, rfl, hp, hl⟩ := exists_wholeLines cs
  cases hlast : l.getLast? with
  | none =>
    rw [List.getLast?_eq_none_iff.1 hlast, List.append_nil]
    exact hp
  | some c =>
    have hc : c = '\n' := h c (by simp [List.getLast?_append, hlast])
    exact absurd (hc ▸ List.mem_of_getLast? hlast) hl

/-- A position counts the whole lines before it and the characters on its own. -/
theorem behind_append (hp : WholeLines p) (hl : '\n' ∉ l) :
    Position.behind (p ++ l) = ⟨1 + p.count '\n', 1 + l.length⟩ := by
  have hall := bne_of_not_mem (mt List.mem_reverse.1 hl)
  have hstop : p.reverse.takeWhile (· != '\n') = [] := by
    cases hr : p.reverse with
    | nil => rfl
    | cons c cs =>
      have hc : c = '\n' := hp.getLast?_eq c (by rw [← List.head?_reverse, hr]; rfl)
      simp [hc]
  rw [Position.behind, List.count_append, List.count_eq_zero.2 hl, List.reverse_append,
    List.takeWhile_append_of_pos hall, hstop, List.append_nil, List.length_reverse, Nat.add_zero]

/-- A text and a longer one end at different positions. -/
theorem eq_nil_of_behind_append {xs ys : List Char}
    (h : Position.behind (xs ++ ys) = .behind xs) : ys = [] := by
  have hline : 1 + (xs ++ ys).count '\n' = 1 + xs.count '\n' := congrArg Position.line h
  have hcolumn : 1 + ((xs ++ ys).reverse.takeWhile (· != '\n')).length =
      1 + (xs.reverse.takeWhile (· != '\n')).length := congrArg Position.column h
  have hys : '\n' ∉ ys.reverse := by
    rw [List.mem_reverse, ← List.count_eq_zero]
    rw [List.count_append] at hline
    omega
  rw [List.reverse_append, List.takeWhile_append_of_pos (bne_of_not_mem hys), List.length_append,
    List.length_reverse] at hcolumn
  exact List.length_eq_zero_iff.1 (by omega)

/-- Behind the text that is done, a position says what stands before it. -/
theorem append_inj_of_behind (done : List Char) {xs ys xs' ys' : List Char}
    (htext : xs ++ ys = xs' ++ ys')
    (h : Position.behind (done ++ xs) = .behind (done ++ xs')) : xs = xs' ∧ ys = ys' := by
  rcases List.append_eq_append_iff.1 htext with ⟨zs, rfl, rfl⟩ | ⟨zs, rfl, rfl⟩
  · rw [← List.append_assoc] at h
    obtain rfl := eq_nil_of_behind_append h.symm
    simp
  · rw [← List.append_assoc] at h
    obtain rfl := eq_nil_of_behind_append h
    simp

/-- A character of a line is still there when the carriage return at its end is not. -/
theorem getElem?_withoutReturn {c : Char} (hc : c ≠ '\r') (l cs : List Char) :
    (withoutReturn (l ++ c :: cs))[l.length]? = some c := by
  unfold withoutReturn
  split
  · rename_i hlast
    have hne : cs ≠ [] := by
      rintro rfl
      simp at hlast
      exact hc hlast
    rw [List.dropLast_append_of_ne_nil (List.cons_ne_nil c cs), List.dropLast_cons_of_ne_nil hne]
    simp
  · simp

/-- The lines of a text have each of its characters at its position, line ends left out. -/
theorem exists_line_at (before after : List Char) {c : Char} (hline : c ≠ '\n')
    (hreturn : c ≠ '\r') :
    ∃ row, (lines (before ++ c :: after))[(Position.behind before).line - 1]? = some row ∧
      row[(Position.behind before).column - 1]? = some c := by
  obtain ⟨p, l, rfl, hp, hl⟩ := exists_wholeLines before
  rw [behind_append hp hl, Nat.add_sub_cancel_left, Nat.add_sub_cancel_left, List.append_assoc,
    ← Nat.add_zero (p.count '\n'), ← List.getElem?_drop, drop_lines hp]
  obtain ⟨q, r, hafter, hq, hr⟩ := exists_wholeLines after
  cases hq with
  | nil =>
    have hrest : '\n' ∉ l ++ c :: r := by simp [hl, hr, Ne.symm hline]
    rw [hafter, List.nil_append, lines_of_not_mem hrest (by simp)]
    exact ⟨_, rfl, by simp⟩
  | @cons line q hq' _ =>
    have hrest : '\n' ∉ l ++ c :: line := by simp [hl, hq', Ne.symm hline]
    have heq : l ++ c :: after = (l ++ c :: line) ++ '\n' :: (q ++ r) := by simp [hafter]
    rw [heq, lines_line hrest]
    exact ⟨_, rfl, getElem?_withoutReturn hreturn l line⟩

end SchemaDiagram.Text
