import SchemaDiagram.Locator
import SchemaDiagram.Proofs.Text.Blank
import SchemaDiagram.Proofs.Text.Lines

/-!
# SchemaDiagram.Proofs.Locator.Block

What the locator finds in the lines of a text, said of the text itself.

The locator counts the braces of whole lines.  Over a text this is the balance of what stands before
a line feed, so that a block closes on the line of the brace that makes the balance zero
(`closingLine?_lines`), and a line is inside the block as long as the balance is above zero at its
end (`fieldLine?_lines`).
-/

namespace SchemaDiagram.Locator

open Text

/-! ## Balance -/

/-- Braces are counted part by part. -/
theorem balance_append (xs ys : List Char) : balance (xs ++ ys) = balance xs + balance ys := by
  simp only [balance, List.count_append]
  omega

/-- Braces are counted character by character. -/
theorem balance_cons (c : Char) (cs : List Char) :
    balance (c :: cs) = balance [c] + balance cs :=
  balance_append [c] cs

@[simp] theorem balance_nil : balance [] = 0 := rfl

@[simp] theorem balance_openBrace : balance ['{'] = 1 := rfl

@[simp] theorem balance_closeBrace : balance ['}'] = -1 := rfl

/-- A line feed does not count. -/
theorem balance_line (line cs : List Char) :
    balance (line ++ '\n' :: cs) = balance line + balance cs := by
  rw [balance_append, balance_cons]
  simp [balance]

/-- A text without braces does not count. -/
theorem balance_of_not_mem {cs : List Char} (ho : '{' ∉ cs) (hc : '}' ∉ cs) : balance cs = 0 := by
  simp [balance, List.count_eq_zero.2 ho, List.count_eq_zero.2 hc]

/-- As many braces are closed as are opened, and none before it is opened. -/
structure Balanced (cs : List Char) : Prop where
  total : balance cs = 0
  begun : ∀ xs ys, cs = xs ++ ys → 0 ≤ balance xs

theorem balanced_nil : Balanced [] where
  total := rfl
  begun xs ys h := by
    rw [(List.append_eq_nil_iff.1 h.symm).1]
    decide

/-- Balanced texts behind each other are balanced. -/
theorem Balanced.append {cs ds : List Char} (hc : Balanced cs) (hd : Balanced ds) :
    Balanced (cs ++ ds) where
  total := by
    rw [balance_append, hc.total, hd.total]
    rfl
  begun xs ys h := by
    rcases List.append_eq_append_iff.1 h with ⟨zs, rfl, hzs⟩ | ⟨zs, hzs, -⟩
    · have := hd.begun zs ys hzs
      rw [balance_append, hc.total]
      omega
    · exact hc.begun xs zs hzs

/-- Braces around a balanced text are balanced. -/
theorem Balanced.enclosed {cs : List Char} (h : Balanced cs) : Balanced ('{' :: (cs ++ ['}'])) where
  total := by
    rw [balance_cons, balance_append, h.total]
    rfl
  begun xs ys hxs := by
    cases xs with
    | nil => decide
    | cons c xs =>
      rw [List.cons_append] at hxs
      obtain ⟨rfl, hinner⟩ := List.cons.inj hxs
      rw [balance_cons, balance_openBrace]
      rcases List.eq_nil_or_concat ys with rfl | ⟨zs, z, rfl⟩
      · rw [List.append_nil] at hinner
        rw [← hinner, balance_append, h.total]
        decide
      · rw [List.concat_eq_append, ← List.append_assoc] at hinner
        have := h.begun xs zs (List.append_inj' hinner rfl).1
        omega

/-! ## Rows -/

/-- A line of a text as it stands there. -/
def firstLine (cs : List Char) : List Char := cs.takeWhile (· != '\n')

/-- What `lines` makes of a line: a carriage return at its end may be gone. -/
def IsRow (row line : List Char) : Prop := row = line ∨ row ++ ['\r'] = line

/-- What is left of a line without its carriage return is a row of it. -/
theorem isRow_withoutReturn (line : List Char) : IsRow (withoutReturn line) line := by
  unfold withoutReturn
  split
  · rename_i hlast
    obtain ⟨hne, hget⟩ := List.getLast?_eq_some_iff.1 hlast
    exact .inr (by simp [hget])
  · exact .inl rfl

/-- A text without line feeds belongs to the first line. -/
theorem firstLine_append {line : List Char} (h : '\n' ∉ line) (cs : List Char) :
    firstLine (line ++ cs) = line ++ firstLine cs := by
  rw [firstLine, List.takeWhile_append_of_pos (bne_of_not_mem h)]
  rfl

/-- The first line ends at the line feed. -/
theorem firstLine_line {line : List Char} (h : '\n' ∉ line) (cs : List Char) :
    firstLine (line ++ '\n' :: cs) = line := by
  rw [firstLine_append h]
  simp [firstLine]

/-- A text with a line feed ends its first line. -/
theorem exists_eq_line {cs : List Char} (h : '\n' ∈ cs) :
    ∃ line more, cs = line ++ '\n' :: more ∧ '\n' ∉ line := by
  obtain ⟨p, l, rfl, hp, hl⟩ := exists_wholeLines cs
  cases hp with
  | nil => exact absurd h hl
  | @cons line p hline _ => exact ⟨line, p ++ l, by simp, hline⟩

/-- A text that is not empty has a first row, that of its first line. -/
theorem exists_lines_eq_cons {cs : List Char} (h : cs ≠ []) :
    ∃ row rest, lines cs = row :: rest ∧ IsRow row (firstLine cs) := by
  obtain ⟨p, l, rfl, hp, hl⟩ := exists_wholeLines cs
  cases hp with
  | nil =>
    rw [List.nil_append] at h ⊢
    refine ⟨l, [], lines_of_not_mem hl h, .inl ?_⟩
    have := firstLine_append hl []
    simpa [firstLine] using this.symm
  | @cons line p hline hp =>
    rw [List.append_assoc, List.cons_append, lines_line hline, firstLine_append hline]
    refine ⟨withoutReturn line, _, rfl, ?_⟩
    simpa [firstLine] using isRow_withoutReturn line

section

variable {row line : List Char}

/-- A carriage return does not count as a brace. -/
theorem balance_of_isRow (h : IsRow row line) : balance row = balance line := by
  rcases h with rfl | rfl
  · rfl
  · rw [balance_append]
    simp [balance]

/-- A carriage return is trimmed, so a row begins with the names that the line begins with. -/
theorem folded_of_isRow (h : IsRow row line) : folded row = folded line := by
  rcases h with rfl | rfl
  · rfl
  · rw [folded, folded, trim_append_singleton row (by decide)]

/-- A row has the characters of its line, but perhaps for the carriage return. -/
theorem mem_of_isRow (h : IsRow row line) {c : Char} (hc : c ≠ '\r') : c ∈ row ↔ c ∈ line := by
  rcases h with rfl | rfl
  · rfl
  · simp [hc]

end

/-! ## The lines of a block -/

/-- A line adds one line feed. -/
theorem count_line {line : List Char} (h : '\n' ∉ line) (cs : List Char) :
    (line ++ '\n' :: cs).count '\n' = cs.count '\n' + 1 := by
  rw [List.count_append, List.count_eq_zero.2 h, List.count_cons_self, Nat.zero_add]

/-- The first line with an opening brace is that of the first opening brace. -/
theorem findIdx?_openBrace {text : List Char} (h : '{' ∉ text) (after : List Char) :
    (lines (text ++ '{' :: after)).findIdx? (·.contains '{') = some (text.count '\n') := by
  induction text using induction_lines with
  | last l hl =>
    have hne : l ++ '{' :: after ≠ [] := by simp
    obtain ⟨row, rest, hlines, hrow⟩ := exists_lines_eq_cons hne
    have hmem : '{' ∈ row := by
      rw [mem_of_isRow hrow (by decide), firstLine_append hl]
      simp [firstLine]
    rw [hlines, List.findIdx?_cons, if_pos (by simpa using hmem), List.count_eq_zero.2 hl]
  | line l cs hl ih =>
    have hmem : '{' ∉ withoutReturn l := by
      rw [mem_of_isRow (isRow_withoutReturn l) (by decide)]
      exact fun hm => h (List.mem_append_left _ hm)
    have hcs : '{' ∉ cs := fun hm => h (List.mem_append_right _ (List.mem_cons_of_mem _ hm))
    rw [List.append_assoc, List.cons_append, lines_line hl, List.findIdx?_cons,
      if_neg (by simpa using hmem), ih hcs, count_line hl]
    rfl

/-- A block is open at the end of every line before a text's last one, and closed at the end of the
line that the text ends on. -/
theorem closingLine?_lines {depth : Int} {text after : List Char} (hne : after ≠ [])
    (hopen : ∀ xs ys, text = xs ++ '\n' :: ys → 0 < depth + balance xs)
    (hclosed : depth + balance text + balance (firstLine after) ≤ 0) :
    closingLine? depth (lines (text ++ after)) = some (text.count '\n') := by
  induction text using induction_lines generalizing depth with
  | last l hl =>
    obtain ⟨row, rest, hlines, hrow⟩ :=
      exists_lines_eq_cons (List.append_ne_nil_of_right_ne_nil l hne)
    have hbalance : balance row = balance l + balance (firstLine after) := by
      rw [balance_of_isRow hrow, firstLine_append hl, balance_append]
    rw [hlines, closingLine?, hbalance, if_pos (by omega), List.count_eq_zero.2 hl]
  | line l cs hl ih =>
    have hbalance := balance_line l cs
    have hl' : 0 < depth + balance l := hopen l cs rfl
    rw [List.append_assoc, List.cons_append, lines_line hl, closingLine?,
      balance_of_isRow (isRow_withoutReturn l), if_neg (by omega), ih, count_line hl]
    · rfl
    · intro xs ys hcs
      have := hopen (l ++ '\n' :: xs) ys (by simp [hcs])
      rw [balance_line] at this
      omega
    · omega

/-- A field is found on the line on which its name begins, as long as no line before does so and the
block is open up to there. -/
theorem fieldLine?_lines {name : List Char} {depth : Int} {text after : List Char}
    (hwhole : WholeLines text) (hne : after ≠ [])
    (hopen : ∀ xs ys, text = xs ++ '\n' :: ys → 0 < depth + balance xs)
    (hskip : ∀ row ∈ lines text, ¬ name <+: folded row)
    (hline : 0 < depth + balance text + balance (firstLine after))
    (hname : name <+: folded (firstLine after)) :
    fieldLine? name depth (lines (text ++ after)) = some (text.count '\n') := by
  induction hwhole generalizing depth with
  | nil =>
    obtain ⟨row, rest, hlines, hrow⟩ := exists_lines_eq_cons hne
    rw [balance_nil] at hline
    rw [List.nil_append, hlines, fieldLine?, balance_of_isRow hrow, folded_of_isRow hrow,
      if_neg (by omega), if_pos (List.isPrefixOf_iff_prefix.2 hname)]
    rfl
  | @cons l cs hl _ ih =>
    have hbalance := balance_line l cs
    have hl' : 0 < depth + balance l := hopen l cs rfl
    rw [lines_line hl] at hskip
    have hrow : ¬ name.isPrefixOf (folded (withoutReturn l)) = true := fun h =>
      hskip _ List.mem_cons_self (List.isPrefixOf_iff_prefix.1 h)
    rw [List.append_assoc, List.cons_append, lines_line hl, fieldLine?,
      balance_of_isRow (isRow_withoutReturn l), if_neg (by omega), if_neg hrow, ih, count_line hl]
    · rfl
    · intro xs ys hcs
      have := hopen (l ++ '\n' :: xs) ys (by simp [hcs])
      rw [balance_line] at this
      omega
    · exact fun row h => hskip row (List.mem_cons_of_mem _ h)
    · omega

/-! ## A block on one line -/

/-- Between the braces of a line stands all up to the last closing one. -/
theorem exists_inlineBody_eq {before : List Char} (body after : List Char)
    (hbefore : '{' ∉ before) :
    ∃ more, inlineBody (before ++ '{' :: (body ++ '}' :: after)) = body ++ more ∧
      ('}' ∉ after → more = []) := by
  have hhead : ∀ cs : List Char, ∀ c ∈ ('}' :: cs).head?, (c != '}') = false := by simp
  have hbehind : ((before ++ '{' :: (body ++ '}' :: after)).dropWhile (· != '{')).drop 1 =
      body ++ '}' :: after := by
    rw [List.dropWhile_append_of_pos (bne_of_not_mem hbefore),
      List.dropWhile_cons_of_neg (by simp)]
    rfl
  have hinline : inlineBody (before ++ '{' :: (body ++ '}' :: after)) =
      ((after.reverse.dropWhile (· != '}') ++ '}' :: body.reverse).drop 1).reverse := by
    rw [inlineBody, hbehind, if_pos (by simp), List.reverse_append, List.reverse_cons,
      List.append_assoc, List.singleton_append, dropWhile_append_of_head (hhead _)]
  rw [hinline]
  cases hdrop : after.reverse.dropWhile (· != '}') with
  | nil => exact ⟨[], by simp, fun _ => rfl⟩
  | cons c cs =>
    refine ⟨'}' :: cs.reverse, by simp, fun hafter => ?_⟩
    have hnil : after.reverse.dropWhile (· != '}') = [] := by
      rw [List.dropWhile_eq_nil_iff]
      exact bne_of_not_mem (mt List.mem_reverse.1 hafter)
    rw [hdrop] at hnil
    contradiction

end SchemaDiagram.Locator
