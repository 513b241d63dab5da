import SchemaDiagram.Proofs.Locator.Block

/-!
# SchemaDiagram.Proofs.Locator.Access

The locator as a reader of numbered lines and bytes.

Where a text is kept as numbered lines, and a line as bytes in UTF-8, a search can ask for a line
that is not there, or for a stretch of bytes that reaches outside its line or begins or ends in the
middle of a character.  `elementAt` is the locator reading this way, and any such access stops it:

| what is read                    | by                                                              |
|---------------------------------|-----------------------------------------------------------------|
| the lines below a declaration   | their numbers, up to the first with an opening brace            |
| the line on which a block opens | its number                                                      |
| what stands between its braces  | the bytes behind the first `{` and before the last `}` after it |

No text stops it (`elementAt_eq`): the number of a line comes from a search among the lines, and a
brace, one byte long, has whole characters on both sides.
-/

namespace SchemaDiagram.Locator

open Text

/-! ## Lines and bytes -/

/-- What a text does not have: a line of this number, or such a stretch of bytes of a line. -/
inductive Outside where
  | line (number : Nat)
  | bytes (first last : Nat)
  deriving DecidableEq, Repr

/-- The line of a number, counted from zero. -/
def lineAt (rows : List (List Char)) (number : Nat) : Except Outside (List Char) :=
  match rows[number]? with
  | some row => .ok row
  | none => .error (.line number)

/-- The length of a text in bytes. -/
def byteLength : List Char → Nat
  | [] => 0
  | c :: cs => c.utf8Size + byteLength cs

/-- A text parted behind a number of bytes; none if it has fewer, or if a character goes on
there. -/
def splitAtByte? (n : Nat) (cs : List Char) : Option (List Char × List Char) :=
  match n, cs with
  | 0, cs => some ([], cs)
  | _ + 1, [] => none
  | n + 1, c :: cs =>
    if c.utf8Size ≤ n + 1 then
      (splitAtByte? (n + 1 - c.utf8Size) cs).map fun (before, after) => (c :: before, after)
    else none

/-- The bytes of a line from one up to another. -/
def slice (line : List Char) (first last : Nat) : Except Outside (List Char) :=
  match splitAtByte? last line with
  | none => .error (.bytes first last)
  | some (upTo, _) =>
    match splitAtByte? first upTo with
    | none => .error (.bytes first last)
    | some (_, stretch) => .ok stretch

/-- The byte at which a character stands first. -/
def firstByte? (c : Char) : List Char → Option Nat
  | [] => none
  | d :: ds => if d = c then some 0 else (firstByte? c ds).map (d.utf8Size + ·)

/-- The byte at which a character stands last. -/
def lastByte? (c : Char) : List Char → Option Nat
  | [] => none
  | d :: ds => ((lastByte? c ds).map (d.utf8Size + ·)).or (if d = c then some 0 else none)

section

variable {c : Char} {xs ys : List Char}

@[simp] theorem byteLength_nil : byteLength [] = 0 := rfl

@[simp] theorem byteLength_cons (c : Char) (cs : List Char) :
    byteLength (c :: cs) = c.utf8Size + byteLength cs := rfl

/-- The length of texts behind each other is the sum of their lengths. -/
@[simp] theorem byteLength_append (xs ys : List Char) :
    byteLength (xs ++ ys) = byteLength xs + byteLength ys := by
  induction xs with
  | nil => simp
  | cons x xs ih => simp [ih, Nat.add_assoc]

/-- Behind whole characters a text can be parted. -/
theorem splitAtByte?_append (xs ys : List Char) :
    splitAtByte? (byteLength xs) (xs ++ ys) = some (xs, ys) := by
  induction xs with
  | nil => cases ys <;> rfl
  | cons x xs ih =>
    have hpos := x.utf8Size_pos
    obtain ⟨n, hn⟩ : ∃ n, byteLength (x :: xs) = n + 1 :=
      ⟨byteLength (x :: xs) - 1, by simp; omega⟩
    have hrest : n + 1 - x.utf8Size = byteLength xs := by simp at hn; omega
    have hfits : x.utf8Size ≤ n + 1 := by simp at hn; omega
    rw [hn, List.cons_append, splitAtByte?, if_pos hfits, hrest, ih]
    rfl

/-- Whole characters are cut out whole. -/
theorem slice_append (before stretch after : List Char) :
    slice (before ++ (stretch ++ after)) (byteLength before) (byteLength (before ++ stretch)) =
      .ok stretch := by
  have hlast := splitAtByte?_append (before ++ stretch) after
  rw [List.append_assoc] at hlast
  rw [slice, hlast]
  dsimp only
  rw [splitAtByte?_append]

/-- The first place of a character is behind the bytes of what has none of it. -/
theorem firstByte?_append (h : c ∉ xs) : firstByte? c (xs ++ c :: ys) = some (byteLength xs) := by
  induction xs with
  | nil => simp [firstByte?]
  | cons x xs ih =>
    simp only [List.mem_cons, not_or] at h
    rw [List.cons_append, firstByte?, if_neg (Ne.symm h.1), ih h.2]
    rfl

/-- A character that is not there has no last place. -/
theorem lastByte?_of_not_mem (h : c ∉ xs) : lastByte? c xs = none := by
  induction xs with
  | nil => rfl
  | cons x xs ih =>
    simp only [List.mem_cons, not_or] at h
    simp [lastByte?, ih h.2, Ne.symm h.1]

/-- The last place of a character is in front of what has none of it. -/
theorem lastByte?_append (h : c ∉ ys) : lastByte? c (xs ++ c :: ys) = some (byteLength xs) := by
  induction xs with
  | nil => simp [lastByte?, lastByte?_of_not_mem h]
  | cons x xs ih => simp [lastByte?, ih]

/-- A character that does not stand behind a place stands before it, if at all. -/
theorem lt_of_lastByte?_append (h : c ∉ ys) {n : Nat} (hn : lastByte? c (xs ++ ys) = some n) :
    n < byteLength xs := by
  induction xs generalizing n with
  | nil =>
    rw [List.nil_append, lastByte?_of_not_mem h] at hn
    contradiction
  | cons x xs ih =>
    have hpos := x.utf8Size_pos
    rw [List.cons_append, lastByte?] at hn
    cases hlast : lastByte? c (xs ++ ys) with
    | none =>
      simp only [hlast, Option.map_none, Option.none_or] at hn
      split at hn
      · cases hn
        simp only [byteLength_cons]
        omega
      · contradiction
    | some m =>
      have hm := ih hlast
      simp only [hlast, Option.map_some, Option.some_or, Option.some.injEq] at hn
      simp only [byteLength_cons]
      omega

end

/-! ## Reading by numbers -/

/-- The first of the lines of the given numbers that has an opening brace. -/
def openingAt (rows : List (List Char)) : List Nat → Except Outside (Option Nat)
  | [] => return none
  | n :: ns => do
    if (← lineAt rows n).contains '{' then return some n else openingAt rows ns

/-- The line of a table's declaration and the line on which its block opens. -/
def blockStartAt (rows : List (List Char)) (table : String) :
    Except Outside (Option (Nat × Nat)) :=
  match rows.findIdx? (declares table) with
  | none => return none
  | some first => do
    let opening ← openingAt rows (List.range' first (rows.length - first))
    return opening.map fun n => (first, n)

/-- Whether a name is one of the words between the braces of a line. -/
def hasWordAt (line name : List Char) : Except Outside Bool :=
  match firstByte? '{' line with
  | none => return false
  | some opening => do
    let closing := ((lastByte? '}' line).filter (opening < ·)).getD (byteLength line)
    let body ← slice line (opening + 1) closing
    return (words body).any (lower · == name)

/-- The lines of a table. -/
def tableAt (rows : List (List Char)) (table : String) : Except Outside (Option Span) := do
  match ← blockStartAt rows table with
  | none => return none
  | some (first, opening) =>
    return (closingLine? 0 (rows.drop opening)).map fun n => .ofLines rows first (opening + n)

/-- The line of a field. -/
def fieldAt (rows : List (List Char)) (table field : String) : Except Outside (Option Span) := do
  let name := lower field.toList
  match ← blockStartAt rows table with
  | none => return none
  | some (_, opening) =>
    let line ← lineAt rows opening
    if balance line ≤ 0 then
      return if ← hasWordAt line name then some (.ofLines rows opening opening) else none
    else
      return (fieldLine? name (balance line) (rows.drop (opening + 1))).map fun n =>
        .ofLines rows (opening + 1 + n) (opening + 1 + n)

/-- The lines of an element. -/
def elementAt (source : String) (e : Element) : Except Outside (Option Span) :=
  let rows := lines source.toList
  match e with
  | .table t | .header t => tableAt rows t
  | .field t f => fieldAt rows t f

/-! ## No access fails -/

section

variable {rows : List (List Char)} {row : List Char} {n first opening : Nat}

/-- A line of the text is found by its number. -/
theorem lineAt_of_eq (h : rows[n]? = some row) : lineAt rows n = .ok row := by rw [lineAt, h]

/-- The numbers from that of a line to the last one are those of lines. -/
theorem openingAt_range' (k first : Nat) (h : first + k = rows.length) :
    openingAt rows (List.range' first k) =
      .ok (((rows.drop first).findIdx? (·.contains '{')).map fun n => first + n) := by
  induction k generalizing first with
  | zero =>
    rw [List.drop_eq_nil_of_le (by omega)]
    rfl
  | succ k ih =>
    have hlt : first < rows.length := by omega
    rw [List.range'_succ, openingAt, lineAt_of_eq (List.getElem?_eq_getElem hlt),
      List.drop_eq_getElem_cons hlt, List.findIdx?_cons]
    dsimp only [bind, Except.bind]
    split
    · rfl
    · rw [ih (first + 1) (by omega), Option.map_map]
      congr 2
      funext n
      simp only [Function.comp_apply]
      omega

/-- A block is looked for in lines that are there. -/
theorem blockStartAt_eq (rows : List (List Char)) (table : String) :
    blockStartAt rows table = .ok (blockStart? rows table) := by
  unfold blockStartAt blockStart?
  cases hfirst : rows.findIdx? (declares table) with
  | none => rfl
  | some first =>
    have hlt : first < rows.length := (List.findIdx?_eq_some_iff_getElem.1 hfirst).1
    dsimp only [bind, Except.bind]
    rw [openingAt_range' (rows.length - first) first (by omega)]
    dsimp only
    rw [Option.map_map]
    rfl

/-- A block opens on a line with an opening brace. -/
theorem exists_row_of_blockStart? {table : String}
    (h : blockStart? rows table = some (first, opening)) :
    ∃ row, rows[opening]? = some row ∧ '{' ∈ row := by
  unfold blockStart? at h
  split at h
  · contradiction
  · obtain ⟨n, hn, hopening⟩ := Option.map_eq_some_iff.1 h
    cases hopening
    obtain ⟨hlt, hmem, -⟩ := List.findIdx?_eq_some_iff_getElem.1 hn
    rw [List.length_drop] at hlt
    rw [List.getElem_drop, List.contains_iff_mem] at hmem
    exact ⟨_, List.getElem?_eq_getElem (by omega), hmem⟩

/-- Without a closing brace the rest of the line is between the braces. -/
theorem inlineBody_of_not_mem {before behind : List Char} (hbefore : '{' ∉ before)
    (hbehind : '}' ∉ behind) : inlineBody (before ++ '{' :: behind) = behind := by
  have hdrop : ((before ++ '{' :: behind).dropWhile (· != '{')).drop 1 = behind := by
    rw [List.dropWhile_append_of_pos (bne_of_not_mem hbefore), List.dropWhile_cons_of_neg (by simp)]
    rfl
  rw [inlineBody, hdrop, if_neg (by simpa using hbehind)]

/-- A character that stands in a text stands there last at one place. -/
theorem exists_append_of_mem {c : Char} {cs : List Char} (h : c ∈ cs) :
    ∃ before after, cs = before ++ c :: after ∧ c ∉ after := by
  obtain ⟨after, before, hparts, hafter⟩ := List.eq_append_cons_of_mem (List.mem_reverse.2 h)
  refine ⟨before.reverse, after.reverse, ?_, mt List.mem_reverse.1 hafter⟩
  rw [← List.reverse_reverse cs, hparts]
  simp

/-- The bytes between the braces of a line are whole characters. -/
theorem hasWordAt_eq {line : List Char} (h : '{' ∈ line) (name : List Char) :
    hasWordAt line name = .ok ((words (inlineBody line)).any (lower · == name)) := by
  obtain ⟨before, behind, rfl, hbefore⟩ := List.eq_append_cons_of_mem h
  have hopening : byteLength before + 1 = byteLength (before ++ ['{']) :=
    (byteLength_append before ['{']).symm
  rw [hasWordAt, firstByte?_append hbefore]
  dsimp only
  by_cases hclose : '}' ∈ behind
  · obtain ⟨body, after, rfl, hafter⟩ := exists_append_of_mem hclose
    have hlast : lastByte? '}' (before ++ '{' :: (body ++ '}' :: after)) =
        some (byteLength (before ++ ['{'] ++ body)) := by
      have := @lastByte?_append '}' (before ++ ['{'] ++ body) after hafter
      simpa using this
    have hbehind : byteLength before < byteLength (before ++ ['{'] ++ body) := by
      rw [byteLength_append, ← hopening]
      omega
    have hslice := slice_append (before ++ ['{']) body ('}' :: after)
    rw [List.append_assoc, List.singleton_append] at hslice
    obtain ⟨more, hinline, hmore⟩ := exists_inlineBody_eq body after hbefore
    rw [hlast, Option.filter_some, if_pos (by simpa using hbehind), Option.getD_some, hopening,
      hslice, hinline, hmore hafter, List.append_nil]
    rfl
  · have hlast : (lastByte? '}' (before ++ '{' :: behind)).filter (byteLength before < ·) =
        none := by
      have hnot : '}' ∉ '{' :: behind := by simpa using hclose
      rw [Option.filter_eq_none_iff]
      intro n hn
      have := lt_of_lastByte?_append hnot hn
      simp
      omega
    have hslice := slice_append (before ++ ['{']) behind []
    rw [List.append_assoc, List.append_assoc, List.append_nil, List.singleton_append] at hslice
    rw [hlast, Option.getD_none, hopening, hslice, inlineBody_of_not_mem hbefore hclose]
    rfl

/-- A table is found without an access that fails. -/
theorem tableAt_eq (rows : List (List Char)) (table : String) :
    tableAt rows table = .ok (table? rows table) := by
  unfold tableAt table?
  rw [blockStartAt_eq]
  dsimp only [bind, Except.bind]
  cases blockStart? rows table <;> rfl

/-- A field is found without an access that fails: the line on which its block opens is there, and
has the brace at which it is cut. -/
theorem fieldAt_eq (rows : List (List Char)) (table field : String) :
    fieldAt rows table field = .ok (field? rows table field) := by
  unfold fieldAt field?
  rw [blockStartAt_eq]
  cases hstart : blockStart? rows table with
  | none => rfl
  | some start =>
    obtain ⟨first, opening⟩ := start
    obtain ⟨row, hrow, hbrace⟩ := exists_row_of_blockStart? hstart
    obtain ⟨hlt, rfl⟩ := List.getElem?_eq_some_iff.1 hrow
    dsimp only [bind, Except.bind]
    rw [List.drop_eq_getElem_cons hlt, lineAt_of_eq hrow]
    dsimp only
    split
    · rw [hasWordAt_eq hbrace]
      rfl
    · rfl

/-- **No access fails.**  The locator asks for no line that the text does not have, and for no bytes
outside of a line or inside of a character. -/
theorem elementAt_eq (source : String) (e : Element) :
    elementAt source e = .ok (element? source e) := by
  cases e with
  | table t => exact tableAt_eq _ t
  | header t => exact tableAt_eq _ t
  | field t f => exact fieldAt_eq _ t f

end

end SchemaDiagram.Locator
