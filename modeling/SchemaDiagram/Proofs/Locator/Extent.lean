import SchemaDiagram.Proofs.Locator.Access
import SchemaDiagram.Proofs.Locator.Inside

/-!
# SchemaDiagram.Proofs.Locator.Extent

Which lines the locator gives, whatever the text.

Braces that do not match, or stand in a comment, give other lines than those meant, but never a
place that the text does not have:

* a span is always one of whole lines of the text (`IsOfLines`);
* a table begins where it is first declared (`Begins`), and ends where as many braces are closed as
  are opened (`Closes`); nothing else is a table (`table?_eq_some_iff`);
* a field is one line, not above the one on which the block of its table opens.
-/

namespace SchemaDiagram.Locator

open Text

/-! ## Lines that are looked for -/

/-- The span of one or more whole lines of a text. -/
structure IsOfLines (rows : List (List Char)) (s : Span) : Prop where
  begins : 1 ≤ s.start.line
  ordered : s.start.line ≤ s.finish.line
  ends : s.finish.line ≤ rows.length
  first : s.start.column = 1
  behind : ∃ row, rows[s.finish.line - 1]? = some row ∧ s.finish.column = row.length + 1

/-- A table is declared on a line and on none before, and the next line from there on with an
opening brace is the one on which its block opens. -/
structure Begins (rows : List (List Char)) (table : String) (first opening : Nat) : Prop where
  declared : ∃ row, rows[first]? = some row ∧ "table ".toList ++ lower table.toList <+: folded row
  undeclared : ∀ row ∈ rows.take first, ¬ "table ".toList ++ lower table.toList <+: folded row
  ordered : first ≤ opening
  opens : ∃ row, rows[opening]? = some row ∧ '{' ∈ row
  unopened : ∀ row ∈ (rows.take opening).drop first, '{' ∉ row

/-- How many more braces are opened than closed on the lines from one to another. -/
def total (rows : List (List Char)) (first last : Nat) : Int :=
  balance ((rows.take (last + 1)).drop first).flatten

/-- From the line on which a block opens, more braces are opened than closed up to every line before
one, and no more than closed up to that one. -/
structure Closes (rows : List (List Char)) (opening last : Nat) : Prop where
  ordered : opening ≤ last
  inside : last < rows.length
  unclosed : ∀ n, opening ≤ n → n < last → 0 < total rows opening n
  closed : total rows opening last ≤ 0

variable {rows : List (List Char)} {table field : String} {s : Span} {name : List Char}
  {depth : Int} {first opening last n : Nat}

/-- The span from one line of a text to another is that of these lines. -/
theorem isOfLines_ofLines (hordered : first ≤ last) (hlast : last < rows.length) :
    IsOfLines rows (.ofLines rows first last) where
  begins := Nat.le_add_left 1 first
  ordered := Nat.succ_le_succ hordered
  ends := hlast
  first := rfl
  behind := ⟨rows[last], List.getElem?_eq_getElem hlast, by
    simp [Span.ofLines, List.getElem?_eq_getElem hlast]⟩

/-! ## Tables -/

theorem declares_iff {row : List Char} :
    declares table row = true ↔ "table ".toList ++ lower table.toList <+: folded row :=
  List.isPrefixOf_iff_prefix

/-- The first line with a property. -/
theorem findIdx?_eq_some_iff_take {p : List Char → Bool} :
    rows.findIdx? p = some n ↔
      (∃ row, rows[n]? = some row ∧ p row = true) ∧ ∀ row ∈ rows.take n, ¬ p row = true := by
  induction rows generalizing n with
  | nil => simp
  | cons row rows ih =>
    rw [List.findIdx?_cons]
    cases n with
    | zero => by_cases hp : p row <;> simp [hp]
    | succ n => by_cases hp : p row <;> simp [hp, ih]

/-- Where the block of a table begins. -/
theorem blockStart?_eq_some_iff :
    blockStart? rows table = some (first, opening) ↔ Begins rows table first opening := by
  constructor
  · intro h
    have hordered := le_of_blockStart? h
    unfold blockStart? at h
    split at h
    · contradiction
    · rename_i n hfirst
      obtain ⟨k, hopening, heq⟩ := Option.map_eq_some_iff.1 h
      cases heq
      rw [findIdx?_eq_some_iff_take] at hfirst hopening
      simp only [declares_iff] at hfirst
      obtain ⟨⟨row, hrow, hbrace⟩, hunopened⟩ := hopening
      rw [List.getElem?_drop] at hrow
      refine ⟨hfirst.1, hfirst.2, hordered, ⟨row, hrow, by simpa using hbrace⟩, ?_⟩
      intro row hmem
      rw [List.drop_take, Nat.add_sub_cancel_left] at hmem
      simpa using hunopened row hmem
  · intro h
    obtain ⟨k, rfl⟩ := Nat.exists_eq_add_of_le h.ordered
    have hfirst : rows.findIdx? (declares table) = some first := by
      rw [findIdx?_eq_some_iff_take]
      simpa only [declares_iff] using ⟨h.declared, h.undeclared⟩
    have hopening : (rows.drop first).findIdx? (·.contains '{') = some k := by
      obtain ⟨row, hrow, hbrace⟩ := h.opens
      rw [findIdx?_eq_some_iff_take, List.getElem?_drop]
      refine ⟨⟨row, hrow, by simpa using hbrace⟩, fun row hmem => ?_⟩
      rw [← Nat.add_sub_cancel_left (n := first) (m := k), ← List.drop_take] at hmem
      simpa using h.unopened row hmem
    rw [blockStart?, hfirst]
    dsimp only
    rw [hopening]
    rfl

/-- A block closes on the first line up to which as many braces are closed as were opened. -/
theorem closingLine?_eq_some_iff :
    closingLine? depth rows = some n ↔
      n < rows.length ∧ (∀ m < n, 0 < depth + balance (rows.take (m + 1)).flatten) ∧
        depth + balance (rows.take (n + 1)).flatten ≤ 0 := by
  induction rows generalizing depth n with
  | nil => simp [closingLine?]
  | cons row rows ih =>
    have hassoc (k : Nat) : depth + balance ((row :: rows).take (k + 1)).flatten =
        depth + balance row + balance (rows.take k).flatten := by
      rw [List.take_succ_cons, List.flatten_cons, balance_append, Int.add_assoc]
    simp only [closingLine?, hassoc]
    by_cases hclosed : depth + balance row ≤ 0
    · rw [if_pos hclosed]
      cases n with
      | zero => simpa using hclosed
      | succ n =>
        have hnot : ¬ ∀ m < n + 1, 0 < depth + balance row + balance (rows.take m).flatten := by
          intro h
          have := h 0 (Nat.succ_pos n)
          simp at this
          omega
        exact iff_of_false (by simp) fun h => hnot h.2.1
    · rw [if_neg hclosed]
      cases n with
      | zero => simp [hclosed]
      | succ n =>
        have hopen : 0 < depth + balance row := by omega
        rw [Nat.forall_lt_succ_left]
        simp [ih, hopen]

/-- Where the block of a table closes. -/
theorem closingLine?_drop_iff :
    closingLine? 0 (rows.drop opening) = some n ↔ Closes rows opening (opening + n) := by
  have htotal (k : Nat) : total rows opening (opening + k) =
      0 + balance ((rows.drop opening).take (k + 1)).flatten := by
    rw [total, List.drop_take, Nat.add_assoc, Nat.add_sub_cancel_left, Int.zero_add]
  rw [closingLine?_eq_some_iff, List.length_drop]
  constructor
  · rintro ⟨hlt, hunclosed, hclosed⟩
    refine ⟨Nat.le_add_right opening n, by omega, ?_, htotal n ▸ hclosed⟩
    intro m hm hlast
    obtain ⟨k, rfl⟩ := Nat.exists_eq_add_of_le hm
    exact htotal k ▸ hunclosed k (by omega)
  · intro h
    have hlt := h.inside
    refine ⟨by omega, fun k hk => ?_, htotal n ▸ h.closed⟩
    exact htotal k ▸ h.unclosed (opening + k) (by omega) (by omega)

/-- A table is where its block begins and closes. -/
theorem table?_eq_some_iff :
    table? rows table = some s ↔ ∃ first opening last, Begins rows table first opening ∧
      Closes rows opening last ∧ s = .ofLines rows first last := by
  constructor
  · intro h
    cases hstart : blockStart? rows table with
    | none =>
      rw [table?, hstart] at h
      contradiction
    | some start =>
      obtain ⟨first, opening⟩ := start
      rw [table?_of_blockStart? hstart] at h
      obtain ⟨n, hn, rfl⟩ := Option.map_eq_some_iff.1 h
      exact ⟨first, opening, opening + n, blockStart?_eq_some_iff.1 hstart,
        closingLine?_drop_iff.1 hn, rfl⟩
  · rintro ⟨first, opening, last, hbegins, hcloses, rfl⟩
    obtain ⟨n, rfl⟩ := Nat.exists_eq_add_of_le hcloses.ordered
    rw [table?_of_blockStart? (blockStart?_eq_some_iff.2 hbegins), closingLine?_drop_iff.2 hcloses]
    rfl

/-- The lines of a table. -/
theorem extent_of_table? (h : table? rows table = some s) :
    IsOfLines rows s ∧ ∃ opening, Begins rows table (s.start.line - 1) opening ∧
      Closes rows opening (s.finish.line - 1) := by
  obtain ⟨first, opening, last, hbegins, hcloses, rfl⟩ := table?_eq_some_iff.1 h
  exact ⟨isOfLines_ofLines (hbegins.ordered.trans hcloses.ordered) hcloses.inside,
    opening, hbegins, hcloses⟩

/-! ## Fields -/

/-- The line of a field. -/
theorem extent_of_field? (h : field? rows table field = some s) :
    IsOfLines rows s ∧ s.start.line = s.finish.line ∧
      ∃ first opening, Begins rows table first opening ∧ opening ≤ s.start.line - 1 := by
  obtain ⟨first, opening, n, hstart, hopening, rfl, -, hlt⟩ := exists_line_of_field? h
  exact ⟨isOfLines_ofLines (Nat.le_refl n) hlt, rfl,
    first, opening, blockStart?_eq_some_iff.1 hstart, hopening⟩

/-! ## In a text -/

/-- What a span says of the lines of an element: those of a table are from its declaration to the
end of its block, that of a field is not above the block. -/
def HasExtent (rows : List (List Char)) (e : Element) (s : Span) : Prop :=
  match e with
  | .table t | .header t => ∃ opening, Begins rows t (s.start.line - 1) opening ∧
      Closes rows opening (s.finish.line - 1)
  | .field t _ => s.start.line = s.finish.line ∧
      ∃ first opening, Begins rows t first opening ∧ opening ≤ s.start.line - 1

/-- **In every text the locator stays inside of the lines, and what it gives are lines.**  Looking
for an element it reads no line that the text does not have, and no bytes outside of a line or inside
of a character.  If it finds lines, they are one or more whole lines of the text: for a table or its
header those from the first line that declares the table to the first one after which, from the line
on which its block opens, no more braces are open; and for a field one line, from there on. -/
theorem extent_of_elementAt (source : String) (e : Element) :
    elementAt source e = .ok (element? source e) ∧
      ∀ s, element? source e = some s →
        IsOfLines (lines source.toList) s ∧ HasExtent (lines source.toList) e s := by
  refine ⟨elementAt_eq source e, fun s h => ?_⟩
  cases e with
  | table t => exact extent_of_table? h
  | header t => exact extent_of_table? h
  | field t f => exact extent_of_field? h

/-- On a line whose only closing brace stands before its opening one, with characters of two bytes
on both sides, a field is found. -/
theorem extent_reversed :
    elementAt "// é\nTable é \x7d \x7b ü int\n" (.field "é" "ü") = .ok (some ⟨⟨2, 1⟩, ⟨2, 18⟩⟩) ∧
      ∃ first opening, Begins (lines "// é\nTable é \x7d \x7b ü int\n".toList) "é" first opening ∧
        opening ≤ 1 := by
  obtain ⟨hread, hextent⟩ :=
    extent_of_elementAt "// é\nTable é \x7d \x7b ü int\n" (.field "é" "ü")
  have hfound : element? "// é\nTable é \x7d \x7b ü int\n" (.field "é" "ü") =
      some ⟨⟨2, 1⟩, ⟨2, 18⟩⟩ := by decide +kernel
  obtain ⟨-, -, hbegins⟩ := hextent _ hfound
  exact ⟨by rw [hread, hfound], hbegins⟩

end SchemaDiagram.Locator
