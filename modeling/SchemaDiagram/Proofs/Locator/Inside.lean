import SchemaDiagram.Proofs.Diagram.NodeName
import SchemaDiagram.Proofs.Locator.Block

/-!
# SchemaDiagram.Proofs.Locator.Inside

Where the line of a field stands among the lines of its table.

Both are searched for from the line on which the block opens, and both searches count braces on
their way.  That of the table ends on the line after which no more braces are open, so it comes back
empty if they stay open (`StayOpen`).  That of the field ends before this line, and needs none: a
field is found in a block that never closes, although its table is not.
-/

namespace SchemaDiagram.Locator

open Text

/-! ## Lines with open braces -/

/-- Below a number of open braces, more than none are open at the end of each of the lines. -/
def StayOpen (depth : Int) (rows : List (List Char)) : Prop :=
  ∀ above below, rows = above ++ below → above ≠ [] → 0 < depth + balance above.flatten

variable {name row : List Char} {depth : Int} {rows : List (List Char)}

/-- A block stays open where no line follows. -/
theorem stayOpen_nil (depth : Int) : StayOpen depth [] := by
  intro above below h hne
  exact absurd (List.append_eq_nil_iff.1 h.symm).1 hne

/-- A block stays open if it is open at the end of its first line and from there on. -/
theorem stayOpen_cons :
    StayOpen depth (row :: rows) ↔ 0 < depth + balance row ∧ StayOpen (depth + balance row) rows := by
  constructor
  · intro h
    refine ⟨by simpa using h [row] rows rfl (by simp), fun above below hrows hne => ?_⟩
    have := h (row :: above) below (by rw [hrows, List.cons_append]) (by simp)
    rw [List.flatten_cons, balance_append] at this
    omega
  · rintro ⟨hrow, hrows⟩ above below h hne
    cases above with
    | nil => contradiction
    | cons first above =>
      obtain ⟨rfl, hbelow⟩ := List.cons.inj h
      rw [List.flatten_cons, balance_append]
      cases above with
      | nil => simpa using hrow
      | cons second above =>
        have := hrows _ below hbelow (by simp)
        omega

/-- No line closes a block exactly if it stays open. -/
theorem closingLine?_eq_none_iff : closingLine? depth rows = none ↔ StayOpen depth rows := by
  induction rows generalizing depth with
  | nil => simp [closingLine?, stayOpen_nil]
  | cons row rows ih =>
    rw [closingLine?, stayOpen_cons, ← ih]
    by_cases hclosed : depth + balance row ≤ 0
    · have hnot : ¬ 0 < depth + balance row := by omega
      simp [hclosed, hnot]
    · have hopen : 0 < depth + balance row := by omega
      simp [hclosed, hopen]

/-- A field is found above the line that closes the block. -/
theorem lt_of_fieldLine?_eq_some {n m : Nat} (hfield : fieldLine? name depth rows = some n)
    (hclosing : closingLine? depth rows = some m) : n < m := by
  induction rows generalizing depth n m with
  | nil => contradiction
  | cons row rows ih =>
    rw [fieldLine?] at hfield
    rw [closingLine?] at hclosing
    by_cases hclosed : depth + balance row ≤ 0
    · rw [if_pos hclosed] at hfield
      contradiction
    · rw [if_neg hclosed] at hfield hclosing
      obtain ⟨m, hm, rfl⟩ := Option.map_eq_some_iff.1 hclosing
      split at hfield
      · cases hfield
        exact Nat.succ_pos m
      · obtain ⟨n, hn, rfl⟩ := Option.map_eq_some_iff.1 hfield
        exact Nat.succ_lt_succ (ih hn hm)

/-- A field is found on one of the lines. -/
theorem lt_length_of_fieldLine? {n : Nat} (h : fieldLine? name depth rows = some n) :
    n < rows.length := by
  induction rows generalizing depth n with
  | nil => contradiction
  | cons row rows ih =>
    rw [fieldLine?] at h
    split_ifs at h
    · cases h
      exact Nat.succ_pos rows.length
    · obtain ⟨m, hm, rfl⟩ := Option.map_eq_some_iff.1 h
      exact Nat.succ_lt_succ (ih hm)

/-! ## Tables and their fields -/

variable {table field : String} {s : Span} {first opening : Nat}

/-- A block does not open above the line of its table. -/
theorem le_of_blockStart? (h : blockStart? rows table = some (first, opening)) :
    first ≤ opening := by
  unfold blockStart? at h
  split at h
  · contradiction
  · obtain ⟨n, _, hn⟩ := Option.map_eq_some_iff.1 h
    cases hn
    exact Nat.le_add_right _ n

/-- A table whose block opens ends on the line that closes the block. -/
theorem table?_of_blockStart? (h : blockStart? rows table = some (first, opening)) :
    table? rows table =
      (closingLine? 0 (rows.drop opening)).map fun n => .ofLines rows first (opening + n) := by
  rw [table?, h]

/-- A field that is found is one line of an open block: the line on which the block opens, or one
below it and above the line that closes the block. -/
theorem exists_line_of_field? (h : field? rows table field = some s) :
    ∃ first opening n, blockStart? rows table = some (first, opening) ∧ opening ≤ n ∧
      s = .ofLines rows n n ∧
      (∀ m, closingLine? 0 (rows.drop opening) = some m → n ≤ opening + m) ∧ n < rows.length := by
  unfold field? at h
  dsimp only at h
  split at h
  · contradiction
  rename_i first opening hstart
  cases hdrop : rows.drop opening with
  | nil =>
    rw [hdrop] at h
    contradiction
  | cons row below =>
    have hlength : rows.length - opening = below.length + 1 := by
      rw [← List.length_drop, hdrop, List.length_cons]
    rw [hdrop] at h
    dsimp only at h
    by_cases hinline : balance row ≤ 0
    · rw [if_pos hinline, Option.ite_none_right_eq_some] at h
      cases h.2
      exact ⟨first, opening, opening, hstart, Nat.le_refl _, rfl,
        fun m _ => Nat.le_add_right _ m, by omega⟩
    · rw [if_neg hinline] at h
      obtain ⟨n, hn, rfl⟩ := Option.map_eq_some_iff.1 h
      have hlt := lt_length_of_fieldLine? hn
      refine ⟨first, opening, opening + 1 + n, hstart, by omega, rfl, fun m hm => ?_, by omega⟩
      -- the search for the closing brace passes the opening line with the same number of braces
      rw [hdrop, closingLine?, Int.zero_add, if_neg hinline] at hm
      obtain ⟨k, hk, rfl⟩ := Option.map_eq_some_iff.1 hm
      have := lt_of_fieldLine?_eq_some hn hk
      omega

/-- The block of a table opens and never closes. -/
def NeverCloses (rows : List (List Char)) (table : String) : Prop :=
  ∃ first opening, blockStart? rows table = some (first, opening) ∧
    StayOpen 0 (rows.drop opening)

/-- Of a table whose field is found, nothing is found exactly if its block never closes. -/
theorem table?_eq_none_iff_of_field? (h : field? rows table field = some s) :
    table? rows table = none ↔ NeverCloses rows table := by
  obtain ⟨first, opening, n, hstart, -⟩ := exists_line_of_field? h
  rw [table?_of_blockStart? hstart, Option.map_eq_none_iff, closingLine?_eq_none_iff, NeverCloses,
    hstart]
  simp

/-- The line of a field is one of its table. -/
theorem line_mem_of_field? {t : Span} (hfield : field? rows table field = some s)
    (htable : table? rows table = some t) :
    t.start.line ≤ s.start.line ∧ s.start.line ≤ t.finish.line := by
  obtain ⟨first, opening, n, hstart, hopening, rfl, hclosing, -⟩ := exists_line_of_field? hfield
  rw [table?_of_blockStart? hstart] at htable
  obtain ⟨m, hm, rfl⟩ := Option.map_eq_some_iff.1 htable
  have hfirst := le_of_blockStart? hstart
  have hlast := hclosing m hm
  exact ⟨by simp [Span.ofLines]; omega, by simp [Span.ofLines]; omega⟩

/-! ## In a text -/

variable {source : String}

/-- A name without a point is looked for as a table. -/
theorem find?_of_not_mem (h : '.' ∉ table.toList) :
    find? source table = table? (lines source.toList) table := by
  have hall := bne_of_not_mem h
  have htable : Element.ofText table = .table table := by
    rw [Element.ofText]
    simp only [List.dropWhile_eq_nil_iff.2 hall]
  rw [find?, htable]
  rfl

/-- A name behind that of a table is looked for as a field, but for the header's. -/
theorem find?_fieldNode (h : '.' ∉ table.toList) (hfield : field ≠ headerName) :
    find? source (fieldNode table field) = field? (lines source.toList) table field := by
  rw [find?, Element.ofText_fieldNode h, if_neg hfield]
  rfl

/-- **A located field is a line of its table, if that is located.**  The field is on a single line,
which is one of those of its table; and the table is located with it, unless its block never
closes. -/
theorem inside_of_find?_eq_some (hpoint : '.' ∉ table.toList) (hheader : field ≠ headerName)
    (h : find? source (fieldNode table field) = some s) :
    s.isSingleLine = true ∧
      (find? source table = none ↔ NeverCloses (lines source.toList) table) ∧
      ∀ t, find? source table = some t →
        t.start.line ≤ s.start.line ∧ s.start.line ≤ t.finish.line := by
  rw [find?_fieldNode hpoint hheader] at h
  rw [find?_of_not_mem hpoint]
  refine ⟨?_, table?_eq_none_iff_of_field? h, fun t => line_mem_of_field? h⟩
  obtain ⟨_, _, n, _, _, rfl, _⟩ := exists_line_of_field? h
  exact beq_self_eq_true (n + 1)

/-- A field of a block that closes. -/
theorem inside_closed :
    ∃ t, find? "Table t \x7b\n  a int\n\x7d\n" "t" = some t ∧
      t.start.line ≤ 2 ∧ 2 ≤ t.finish.line := by
  have hfield : find? "Table t \x7b\n  a int\n\x7d\n" (fieldNode "t" "a") =
      some ⟨⟨2, 1⟩, ⟨2, 8⟩⟩ := by decide +kernel
  obtain ⟨-, -, hinside⟩ := inside_of_find?_eq_some (by decide) (by decide) hfield
  have htable : find? "Table t \x7b\n  a int\n\x7d\n" "t" = some ⟨⟨1, 1⟩, ⟨3, 2⟩⟩ := by
    decide +kernel
  exact ⟨_, htable, hinside _ htable⟩

/-- A field is located in a block that never closes, and its table is not. -/
theorem not_inside_unclosed :
    ¬ ∀ (source table field : String) (s : Span), '.' ∉ table.toList → field ≠ headerName →
      find? source (fieldNode table field) = some s →
        ∃ t, find? source table = some t ∧ s.isSingleLine = true ∧
          t.start.line ≤ s.start.line ∧ s.start.line ≤ t.finish.line := by
  intro h
  have hfield : find? "Table t \x7b\n  a int\n" (fieldNode "t" "a") =
      some ⟨⟨2, 1⟩, ⟨2, 8⟩⟩ := by decide +kernel
  obtain ⟨t, ht, -⟩ := h _ "t" "a" _ (by decide) (by decide) hfield
  have hnone : find? "Table t \x7b\n  a int\n" "t" = none := by decide +kernel
  rw [hnone] at ht
  contradiction

end SchemaDiagram.Locator
