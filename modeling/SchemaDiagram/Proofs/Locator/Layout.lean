import SchemaDiagram.Proofs.Locator.Block
import SchemaDiagram.Proofs.Text.LowerCase

/-!
# SchemaDiagram.Proofs.Locator.Layout

What the locator finds in a text with a table in it, cut at the table's braces:

```
before head { body } after
```

Where the table begins a line and no line before is taken for it (`Opens`), the locator finds the
lines of the table (`Opens.table?`), and those of its fields on lines of their own
(`Opens.field?_own`) or between braces on one line (`Opens.field?_inline`).
-/

namespace SchemaDiagram.Locator

open Text

/-! ## Balance -/

/-- Behind its opening brace a balanced block is open at every line feed in it. -/
theorem Balanced.pos_of_line {m body : List Char} (h : Balanced body) (hline : '\n' ∉ m)
    (hm : balance m = 0) : ∀ xs ys, m ++ '{' :: body = xs ++ '\n' :: ys → 0 < balance xs := by
  intro xs ys he
  obtain ⟨b, hxs, hbody⟩ : ∃ b, xs = m ++ '{' :: b ∧ body = b ++ '\n' :: ys := by
    rcases List.append_eq_append_iff.1 he with ⟨a, rfl, ha⟩ | ⟨a, rfl, ha⟩
    · cases a with
      | nil => simp at ha
      | cons c b =>
        obtain ⟨rfl, rfl⟩ := List.cons.inj ha
        exact ⟨b, rfl, rfl⟩
    · cases a with
      | nil => simp at ha
      | cons c b =>
        obtain ⟨rfl, -⟩ := List.cons.inj ha
        simp at hline
  have hb := h.begun b ('\n' :: ys) hbody
  rw [hxs, balance_append, balance_cons, balance_openBrace]
  omega

/-! ## Words at the beginning of a line -/

theorem newline_not_mem {cs : List Char} (h : ∀ c ∈ cs, isBlank c = false) : '\n' ∉ cs :=
  fun hn => absurd (h _ hn) (by decide)

/-- A text that begins a line stands first on it when the blanks are trimmed, and so does some of
what follows it. -/
theorem exists_folded_eq {l text next : List Char} (hblank : ∀ c ∈ l, isBlank c = true)
    (hl : '\n' ∉ l) (hnext : ∀ c ∈ next.head?, PartsWords c)
    (hline : '\n' ∉ text) (hne : text ≠ []) (hfirst : ∀ c ∈ text.head?, isBlank c = false)
    (hlast : ∀ c ∈ text.getLast?, isBlank c = false) :
    ∃ kept, (∀ c ∈ kept.head?, PartsWords c) ∧
      folded (firstLine (l ++ (text ++ next))) = lower (text ++ kept) := by
  obtain ⟨kept, hkept, htrim⟩ := exists_trim_eq hblank hfirst hlast hne (firstLine next)
  refine ⟨kept, fun c hc => ?_, ?_⟩
  · have hprefix : kept <+: next := hkept.trans (List.takeWhile_prefix _)
    cases kept with
    | nil => contradiction
    | cons d kept =>
      obtain ⟨ds, rfl⟩ := hprefix
      exact hnext c hc
  · rw [firstLine_append hl, firstLine_append hline, folded, htrim]

/-- A line on which a keyword, a space and a name stand first declares the table of that name. -/
theorem declares_firstLine {l keyword next : List Char} {name : String}
    (hblank : ∀ c ∈ l, isBlank c = true) (hl : '\n' ∉ l)
    (hkeyword : lowerAscii keyword = "table".toList) (hword : ∀ c ∈ keyword, isBlank c = false)
    (hname : ∀ c ∈ name.toList, isBlank c = false) (hne : name.toList ≠ [])
    (hnext : ∀ c ∈ next.head?, PartsWords c) :
    declares name (firstLine (l ++ (keyword ++ ' ' :: (name.toList ++ next)))) = true := by
  have hline : '\n' ∉ keyword ++ ' ' :: name.toList := by
    simp [newline_not_mem hword, newline_not_mem hname]
  have hfirst : ∀ c ∈ (keyword ++ ' ' :: name.toList).head?, isBlank c = false := by
    cases keyword with
    | nil => contradiction
    | cons k keyword =>
      intro c hc
      cases hc
      exact hword k List.mem_cons_self
  have hlast : ∀ c ∈ (keyword ++ ' ' :: name.toList).getLast?, isBlank c = false := by
    intro c hc
    rw [List.getLast?_append, List.getLast?_cons_of_ne_nil hne, List.getLast?_eq_some_getLast hne] at hc
    cases hc
    exact hname _ (List.getLast_mem hne)
  obtain ⟨kept, hkept, hfolded⟩ :=
    exists_folded_eq hblank hl hnext hline (by simp) hfirst hlast
  rw [declares, List.isPrefixOf_iff_prefix]
  have htext : l ++ (keyword ++ ' ' :: (name.toList ++ next)) =
      l ++ ((keyword ++ ' ' :: name.toList) ++ next) := by simp
  rw [htext, hfolded, List.append_assoc, List.cons_append, lower_append_space,
    lower_of_lowerAscii hkeyword (by decide)]
  exact (List.prefix_append_right_inj _).2 (lower_isPrefix hkept _)

/-- A name that stands first on a line begins it. -/
theorem name_prefix_folded {l name next : List Char} (hblank : ∀ c ∈ l, isBlank c = true)
    (hl : '\n' ∉ l) (hname : ∀ c ∈ name, isBlank c = false) (hne : name ≠ [])
    (hnext : ∀ c ∈ next.head?, PartsWords c) :
    lower name <+: folded (firstLine (l ++ (name ++ next))) := by
  obtain ⟨kept, hkept, hfolded⟩ := exists_folded_eq hblank hl hnext (newline_not_mem hname) hne
    (fun c hc => hname c (List.mem_of_mem_head? hc))
    (fun c hc => hname c (List.mem_of_getLast? hc))
  rw [hfolded]
  exact lower_isPrefix hkept name

/-! ## The block of a table -/

/-- In the text `cs` a table begins behind the whole lines `p` and the blanks `l`, and its block
opens behind `head`.  No line before is taken for the table. -/
structure Opens (name : String) (cs p l head rest : List Char) : Prop where
  text : cs = p ++ (l ++ (head ++ '{' :: rest))
  whole : WholeLines p
  line : '\n' ∉ l
  blank : ∀ c ∈ l, isBlank c = true
  new : ∀ row ∈ lines p, declares name row = false
  declares : declares name (firstLine (l ++ (head ++ '{' :: rest))) = true
  noOpenBrace : '{' ∉ head
  noCloseBrace : '}' ∉ head

namespace Opens

variable {name : String} {cs p l head rest : List Char}

theorem not_mem (h : Opens name cs p l head rest) : '{' ∉ l ++ head ∧ '}' ∉ l ++ head := by
  have hblank : ∀ c : Char, isBlank c = false → c ∉ l := fun c hc hmem => by
    rw [h.blank c hmem] at hc
    contradiction
  simp [hblank '{' (by decide), hblank '}' (by decide), h.noOpenBrace, h.noCloseBrace]

/-- The block is found where it opens: line feeds count the lines up to the table and from there
on. -/
theorem blockStart?_eq (h : Opens name cs p l head rest) :
    blockStart? (lines cs) name = some (p.count '\n', p.count '\n' + head.count '\n') := by
  have hnone : (lines p).findIdx? (Locator.declares name) = none := by
    simpa [List.findIdx?_eq_none_iff] using h.new
  have hne : l ++ (head ++ '{' :: rest) ≠ [] := by simp
  obtain ⟨row, rows, hlines, hrow⟩ := exists_lines_eq_cons hne
  have hdeclares : Locator.declares name row = true := by
    rw [Locator.declares, folded_of_isRow hrow]
    exact h.declares
  have hfirst : (lines cs).findIdx? (Locator.declares name) = some (p.count '\n') := by
    rw [h.text, lines_append h.whole, List.findIdx?_append, hnone, hlines, List.findIdx?_cons,
      if_pos hdeclares, length_lines h.whole]
    simp
  have hcount : (l ++ head).count '\n' = head.count '\n' := by
    rw [List.count_append, List.count_eq_zero.2 h.line, Nat.zero_add]
  rw [blockStart?, hfirst]
  dsimp only
  rw [h.text, drop_lines h.whole, ← List.append_assoc, findIdx?_openBrace h.not_mem.1, hcount]
  rfl

/-- The line on which the block opens. -/
theorem exists_drop_eq (h : Opens name cs p l head rest) :
    ∃ m, '\n' ∉ m ∧ '{' ∉ m ∧ balance m = 0 ∧
      (lines cs).drop (p.count '\n' + head.count '\n') = lines (m ++ '{' :: rest) := by
  obtain ⟨q, m, hqm, hq, hm⟩ := exists_wholeLines (l ++ head)
  have ho : '{' ∉ q ++ m := hqm ▸ h.not_mem.1
  have hc : '}' ∉ q ++ m := hqm ▸ h.not_mem.2
  simp only [List.mem_append, not_or] at ho hc
  have hcount : q.count '\n' = head.count '\n' := by
    have := congrArg (List.count '\n') hqm
    rw [List.count_append, List.count_append, List.count_eq_zero.2 h.line,
      List.count_eq_zero.2 hm] at this
    omega
  refine ⟨m, hm, ho.2, balance_of_not_mem ho.2 hc.2, ?_⟩
  have htext : cs = (p ++ q) ++ (m ++ '{' :: rest) := by
    rw [h.text, ← List.append_assoc l, hqm]
    simp
  rw [htext, ← hcount, ← List.count_append, drop_lines (h.whole.append hq)]

/-- The lines of a table run from its keyword to the brace that closes it. -/
theorem table?_eq {body after : List Char} (h : Opens name cs p l head (body ++ '}' :: after))
    (hbody : Balanced body) (hafter : balance (firstLine after) ≤ 0) :
    table? (lines cs) name = some (.ofLines (lines cs) (p.count '\n')
      (p.count '\n' + head.count '\n' + body.count '\n')) := by
  obtain ⟨m, hline, -, hm, hdrop⟩ := h.exists_drop_eq
  have hopen := hbody.pos_of_line hline hm
  have hclosed : 0 + balance (m ++ '{' :: body) + balance (firstLine ('}' :: after)) ≤ 0 := by
    have hfirst : firstLine ('}' :: after) = '}' :: firstLine after := rfl
    rw [hfirst, balance_append, balance_cons '{', balance_cons '}', hm, hbody.total,
      balance_openBrace, balance_closeBrace]
    omega
  have hclosing := closingLine?_lines (List.cons_ne_nil '}' after)
    (fun xs ys he => by simpa using hopen xs ys he) hclosed
  have hcount : (m ++ '{' :: body).count '\n' = body.count '\n' := by
    simp [List.count_append, List.count_eq_zero.2 hline]
  rw [List.append_assoc, List.cons_append, hcount] at hclosing
  rw [table?, h.blockStart?_eq]
  dsimp only
  rw [hdrop, hclosing]
  rfl

/-- A field that begins a line inside the block, the first one to be taken for it, is on this
line. -/
theorem field?_own {body after first above indent next : List Char} {field : String}
    (h : Opens name cs p l head (body ++ '}' :: after)) (hbody : Balanced body)
    (htext : body = first ++ '\n' :: (above ++ (indent ++ (field.toList ++ next))))
    (hfirst : '\n' ∉ first) (habove : WholeLines above)
    (hskip : ∀ row ∈ lines above, ¬ lower field.toList <+: folded row)
    (hindent : ∀ c ∈ indent, isBlank c = true) (hline : '\n' ∉ indent)
    (hfield : ∀ c ∈ field.toList, isBlank c = false) (hne : field.toList ≠ [])
    (hnext : ∀ c ∈ next.head?, PartsWords c) (hmore : '\n' ∈ next) :
    field? (lines cs) name field = some (.ofLines (lines cs)
      (p.count '\n' + head.count '\n' + 1 + above.count '\n')
      (p.count '\n' + head.count '\n' + 1 + above.count '\n')) := by
  obtain ⟨m, hm, -, hbalance, hdrop⟩ := h.exists_drop_eq
  obtain ⟨last, more, rfl, hlast⟩ := exists_eq_line hmore
  -- the line of the opening brace, and the lines below it
  have hopening : '\n' ∉ m ++ '{' :: first := by simp [hm, hfirst]
  have hlines : lines (m ++ '{' :: (body ++ '}' :: after)) = withoutReturn (m ++ '{' :: first) ::
      lines (above ++ (indent ++ (field.toList ++ (last ++ '\n' :: (more ++ '}' :: after))))) := by
    rw [← lines_line hopening, htext]
    simp
  have hdepth : balance (withoutReturn (m ++ '{' :: first)) = 1 + balance first := by
    rw [balance_of_isRow (isRow_withoutReturn _), balance_append, balance_cons, hbalance,
      balance_openBrace]
    omega
  have hopen : 0 ≤ balance first := hbody.begun first _ htext
  have hinside : ∀ xs ys, above = xs ++ '\n' :: ys → 0 < 1 + balance first + balance xs := by
    intro xs ys he
    have htext' : body = (first ++ '\n' :: xs) ++
        '\n' :: (ys ++ (indent ++ (field.toList ++ (last ++ '\n' :: more)))) := by
      rw [htext, he]
      simp
    have := hbody.begun _ _ htext'
    rw [balance_line] at this
    omega
  have hrow : firstLine (indent ++ (field.toList ++ (last ++ '\n' :: (more ++ '}' :: after)))) =
      indent ++ (field.toList ++ last) := by
    rw [firstLine_append hline, firstLine_append (newline_not_mem hfield), firstLine_line hlast]
  have hinside' : 0 < 1 + balance first + balance above + balance (indent ++ (field.toList ++ last)) := by
    have htext' : body =
        (first ++ '\n' :: (above ++ (indent ++ (field.toList ++ last)))) ++ '\n' :: more := by
      rw [htext]
      simp
    have := hbody.begun _ _ htext'
    rw [balance_line, balance_append] at this
    omega
  have hnext' : ∀ c ∈ (last ++ '\n' :: (more ++ '}' :: after)).head?, PartsWords c := by
    simpa using hnext
  have hfound := fieldLine?_lines habove (by simp) hinside hskip (hrow ▸ hinside')
    (name_prefix_folded hindent hline hfield hne hnext')
  rw [field?, h.blockStart?_eq]
  dsimp only
  rw [hdrop, hlines]
  dsimp only
  rw [hdepth, if_neg (by omega), hfound]
  rfl

/-- A field is between braces on one line if its name is a word there. -/
theorem field?_inline {body after before next : List Char} {field : String}
    (h : Opens name cs p l head (body ++ '}' :: after)) (hbody : Balanced body)
    (hafter : balance (firstLine after) ≤ 0) (htext : body = before ++ (field.toList ++ next))
    (hline : '\n' ∉ body) (hfield : ∀ c ∈ field.toList, isBlank c = false)
    (hne : field.toList ≠ []) (hbefore : ∀ c ∈ before.getLast?, isBlank c = true)
    (hnext : ∀ c ∈ next.head?, isBlank c = true) (hlast : next = [] → '}' ∉ firstLine after) :
    field? (lines cs) name field = some (.ofLines (lines cs)
      (p.count '\n' + head.count '\n') (p.count '\n' + head.count '\n')) := by
  obtain ⟨m, hm, hopen, hbalance, hdrop⟩ := h.exists_drop_eq
  have hne' : m ++ '{' :: (body ++ '}' :: after) ≠ [] := by simp
  obtain ⟨row, rest, hlines, hrow⟩ := exists_lines_eq_cons hne'
  have hfirst : firstLine (m ++ '{' :: (body ++ '}' :: after)) =
      m ++ '{' :: (body ++ '}' :: firstLine after) := by
    have hthrough : '\n' ∉ m ++ '{' :: (body ++ ['}']) := by simp [hm, hline]
    have := firstLine_append hthrough after
    simpa using this
  rw [hfirst] at hrow
  have hclosed : balance row ≤ 0 := by
    rw [balance_of_isRow hrow, balance_append, balance_cons '{', balance_append, balance_cons '}',
      hbalance, hbody.total, balance_openBrace, balance_closeBrace]
    omega
  obtain ⟨behind, hrow_eq, hbehind⟩ : ∃ behind, row = m ++ '{' :: (body ++ '}' :: behind) ∧
      ('}' ∉ firstLine after → '}' ∉ behind) := by
    rcases hrow with rfl | hreturn
    · exact ⟨_, rfl, id⟩
    · rcases List.eq_nil_or_concat (firstLine after) with hnil | ⟨behind, c, hbehind⟩
      · have heq : row ++ ['\r'] = (m ++ '{' :: body) ++ ['}'] := by simp [hreturn, hnil]
        exact absurd (List.append_inj' heq rfl).2 (by decide)
      · rw [List.concat_eq_append] at hbehind
        have heq : row ++ ['\r'] = (m ++ '{' :: (body ++ '}' :: behind)) ++ [c] := by
          simp [hreturn, hbehind]
        refine ⟨behind, (List.append_inj' heq rfl).1, fun h hmem => h ?_⟩
        rw [hbehind]
        exact List.mem_append_left _ hmem
  obtain ⟨kept, hinline, hkept⟩ := exists_inlineBody_eq body behind hopen
  have hword : field.toList ∈ words (inlineBody row) := by
    rw [hrow_eq, hinline, htext, List.append_assoc, List.append_assoc]
    refine mem_words hne hfield hbefore ?_
    cases next with
    | nil => simp [hkept (hbehind (hlast rfl))]
    | cons c next => exact hnext
  rw [field?, h.blockStart?_eq]
  dsimp only
  rw [hdrop, hlines]
  dsimp only
  rw [if_pos hclosed, if_pos]
  rw [List.any_eq_true]
  exact ⟨field.toList, hword, by simp⟩

end Opens

end SchemaDiagram.Locator
