import SchemaDiagram.Proofs.Grammar.Phrase
import SchemaDiagram.Proofs.Token.Reading

/-!
# SchemaDiagram.Proofs.Token.Writing

Tokens written down, line by line, and read again.

1. `Token.write` is one way to spell each token.  Backslashes, quotes and line feeds are escaped, so
   that a token never goes beyond its line.
2. A `Spacing` says which blanks stand between the tokens of a line.
3. `Rows` says of located tokens that they are those of some lines, each token on the line with the
   number of its own; reading what has been written gives such tokens
   (`Spacing.exists_reads_writeLines`).
-/

namespace SchemaDiagram

/-! ## Single tokens -/

namespace Token

/-- A character as it stands between quotes. -/
def escapeChar (quote c : Char) : List Char :=
  if c = '\n' then ['\\', 'n'] else if c = '\\' ∨ c = quote then ['\\', c] else [c]

/-- A text as it stands between quotes. -/
def escape (quote : Char) (cs : List Char) : List Char := cs.flatMap (escapeChar quote)

/-- A text between quotes. -/
def enclose (quote : Char) (text : String) : List Char :=
  quote :: escape quote text.toList ++ [quote]

/-- One way to write a token. -/
def write : Token → List Char
  | identifier text | number text | color text => text.toList
  | string text => enclose '\'' text
  | quoted text => enclose '"' text
  | expression text => enclose '\x60' text
  | symbol s => s.chars

/-- Whether a token can be written: a word has to be an identifier, and so on.  Between quotes any
text can stand. -/
def IsWritable : Token → Prop
  | identifier text => IsIdentifier text.toList
  | number text => IsNumber text.toList
  | color text => IsColor text.toList
  | _ => True

/-- A text with its special characters escaped is a body that stands for the text. -/
theorem body_escape {quote : Char} (hq : quote ∉ ['n', 't', 'r']) (cs : List Char) :
    Quotes.Body quote (escape quote cs) cs := by
  induction cs with
  | nil => exact .nil
  | cons c cs ih =>
    rw [escape, List.flatMap_cons, escapeChar]
    split
    · rename_i hc
      exact hc ▸ .lineFeed ih
    · rename_i hline
      split
      · rename_i hc
        refine .escaped ?_ ih
        rcases hc with rfl | rfl
        · decide
        · exact hq
      · rename_i hc
        rw [not_or] at hc
        exact .plain hc.2 hc.1 (fun h => absurd h hline) ih

/-- A token that can be written is spelled by what is written. -/
theorem spells_write {t : Token} (h : t.IsWritable) : Spells t t.write := by
  cases t with
  | identifier text => exact .identifier h
  | number text => exact .number h
  | color text => exact .color h
  | string text => exact .string (body_escape (by decide) _)
  | quoted text => exact .quoted (body_escape (by decide) _)
  | expression text => exact .expression (body_escape (by decide) _)
  | symbol s => exact .symbol s

/-- A token that can be written has a character. -/
theorem exists_write_eq_cons {t : Token} (h : t.IsWritable) : ∃ c cs, t.write = c :: cs := by
  have hend : ∀ c ∈ ([] : List Char).head?, t.isEndedBy c = true := by simp
  obtain ⟨c, cs, heq, _⟩ := Lexeme.first_of_spells (spells_write h) hend
  exact ⟨c, cs, heq⟩

/-- An escaped text has no line feed. -/
theorem not_mem_escape (quote : Char) (cs : List Char) : '\n' ∉ escape quote cs := by
  rw [escape, List.mem_flatMap]
  rintro ⟨c, _, hc⟩
  rw [escapeChar] at hc
  split at hc
  · revert hc
    decide
  · rename_i hline
    split at hc
    · simp only [List.mem_cons, List.not_mem_nil, or_false] at hc
      rcases hc with h | h
      · revert h
        decide
      · exact hline h.symm
    · exact hline (List.mem_singleton.1 hc).symm

/-- A text between quotes is written without a line feed. -/
theorem not_mem_enclose {quote : Char} (hq : quote ≠ '\n') (text : String) :
    '\n' ∉ enclose quote text := by
  simp [enclose, not_mem_escape, hq.symm]

/-- Where all characters pass a test that a line feed fails, there is no line feed. -/
theorem not_mem_of_all {p : Char → Bool} {cs : List Char} (h : ∀ c ∈ cs, p c = true)
    (hp : p '\n' = false) : '\n' ∉ cs := by
  intro hm
  rw [h _ hm] at hp
  contradiction

/-- A token stays on its line. -/
theorem not_mem_write {t : Token} (h : t.IsWritable) : '\n' ∉ t.write := by
  cases t with
  | identifier text =>
    obtain ⟨digits, c, cs, heq, hdigits, hc, hcs⟩ := h
    have hstart : '\n' ≠ c := by
      rintro rfl
      exact absurd hc (by decide)
    simp only [write, heq, List.mem_append, List.mem_cons, not_or]
    exact ⟨not_mem_of_all hdigits rfl, hstart, not_mem_of_all hcs (by decide)⟩
  | number text =>
    obtain ⟨whole, _, hwhole, heq | ⟨fraction, heq, hfraction⟩⟩ := h
    · rw [write, heq]
      exact not_mem_of_all hwhole rfl
    · simp only [write, heq, List.mem_append, List.mem_cons, not_or]
      exact ⟨not_mem_of_all hwhole rfl, by decide, not_mem_of_all hfraction rfl⟩
  | color text =>
    obtain ⟨digits, heq, _, hdigits⟩ := h
    simp only [write, heq, List.mem_cons, not_or]
    exact ⟨by decide, not_mem_of_all hdigits rfl⟩
  | string text => exact not_mem_enclose (by decide) text
  | quoted text => exact not_mem_enclose (by decide) text
  | expression text => exact not_mem_enclose (by decide) text
  | symbol s => cases s <;> decide

end Token

/-! ## Spacing -/

/-- What stands between two tokens of a line, and at its beginning and its end, where there is no
token on one side.  Tokens may touch if the second begins with a character that ends the first. -/
structure Spacing where
  gap : Option Token → Option Token → List Char
  isBlank_of_mem_gap : ∀ {before after c}, c ∈ gap before after → Text.isBlank c = true ∧ c ≠ '\n'
  isEndedBy_of_gap_eq_nil : ∀ {t u : Token}, gap (some t) (some u) = [] →
    ∀ c ∈ u.write.head?, t.isEndedBy c = true

namespace Spacing

/-- One space between each two tokens. -/
def spaced : Spacing where
  gap before after := if before.isSome && after.isSome then [' '] else []
  isBlank_of_mem_gap h := by
    split at h
    · rw [List.mem_singleton.1 h]
      decide
    · contradiction
  isEndedBy_of_gap_eq_nil h := by simp at h

instance : Inhabited Spacing := ⟨spaced⟩

variable (spacing : Spacing)

/-- The rest of a line, behind a token or at the beginning of the line. -/
def writeBehind : Option Token → List Token → List Char
  | before, [] => spacing.gap before none ++ ['\n']
  | before, t :: line => spacing.gap before (some t) ++ (t.write ++ writeBehind (some t) line)

/-- A line. -/
def writeLine (line : List Token) : List Char := spacing.writeBehind none line

/-- Lines, one below the other. -/
def writeLines (lines : List (List Token)) : List Char := lines.flatMap spacing.writeLine

end Spacing

/-! ## Lines -/

/-- The tokens of a line, all of them on the line of the given number. -/
def Row (n : Nat) (line : List Token) : Phrase := fun ts rest =>
  ∃ taken, ts = taken ++ rest ∧ taken.map (·.token) = line ∧ ∀ t ∈ taken, t.position.line = n

/-- The tokens of lines that are numbered from the given number on. -/
def Rows : Nat → List (List Token) → Phrase
  | _, [] => .empty
  | n, line :: lines => .seq (Row n line) (Rows (n + 1) lines)

/-- Behind characters without a line feed the line is the same. -/
theorem line_after {cs : List Char} (h : '\n' ∉ cs) (p : Position) :
    (p.after cs).line = p.line := by
  induction cs generalizing p with
  | nil => rfl
  | cons c cs ih =>
    rw [List.mem_cons, not_or] at h
    rw [Position.after_cons, ih h.2, Position.next, if_neg fun hc => h.1 hc.symm]

open Lexeme (Reads reads_nil reads_token reads_blank reads_blanks)

namespace Spacing

variable {spacing : Spacing}

/-- The gap between two tokens of a line does not leave the line. -/
theorem line_after_gap (before after : Option Token) (p : Position) :
    (p.after (spacing.gap before after)).line = p.line :=
  line_after (fun h => (spacing.isBlank_of_mem_gap h).2 rfl) p

/-- The rest of a line ends the token that it stands behind. -/
theorem isEndedBy_of_mem_writeBehind {line : List Token} (h : ∀ t ∈ line, t.IsWritable)
    (t : Token) (cs : List Char) :
    ∀ c ∈ (spacing.writeBehind (some t) line ++ cs).head?, t.isEndedBy c = true := by
  intro c hc
  cases line with
  | nil =>
    rw [writeBehind] at hc
    cases hgap : spacing.gap (some t) none with
    | nil =>
      rw [hgap] at hc
      cases hc
      exact Token.isEndedBy_of_isBlank (by decide) t
    | cons b gap =>
      rw [hgap] at hc
      cases hc
      have hb : c ∈ spacing.gap (some t) none := hgap ▸ List.mem_cons_self
      exact Token.isEndedBy_of_isBlank (spacing.isBlank_of_mem_gap hb).1 t
  | cons u line =>
    rw [writeBehind] at hc
    cases hgap : spacing.gap (some t) (some u) with
    | nil =>
      obtain ⟨d, ds, hwrite⟩ := Token.exists_write_eq_cons (h u List.mem_cons_self)
      rw [hgap, hwrite] at hc
      cases hc
      exact spacing.isEndedBy_of_gap_eq_nil hgap c (by rw [hwrite]; rfl)
    | cons b gap =>
      rw [hgap] at hc
      cases hc
      have hb : c ∈ spacing.gap (some t) (some u) := hgap ▸ List.mem_cons_self
      exact Token.isEndedBy_of_isBlank (spacing.isBlank_of_mem_gap hb).1 t

/-- What is written in the rest of a line is read as its tokens. -/
theorem exists_reads_writeBehind {line : List Token} (h : ∀ t ∈ line, t.IsWritable)
    (before : Option Token) (p : Position) {cs : List Char} {rest : List Located}
    (hr : Reads ⟨p.line + 1, 1⟩ cs rest) :
    ∃ ts, Reads p (spacing.writeBehind before line ++ cs) ts ∧ Row p.line line ts rest := by
  induction line generalizing before p with
  | nil =>
    refine ⟨rest, ?_, [], rfl, rfl, by simp⟩
    rw [writeBehind, List.append_assoc]
    refine reads_blanks (fun c hc => (spacing.isBlank_of_mem_gap hc).1) ?_
    refine reads_blank (by decide) ?_
    show Reads ⟨(p.after (spacing.gap before none)).line + 1, 1⟩ cs rest
    rw [line_after_gap]
    exact hr
  | cons t line ih =>
    have ht := h t List.mem_cons_self
    have hline : ∀ t ∈ line, t.IsWritable := fun u hu => h u (List.mem_cons_of_mem t hu)
    let q := p.after (spacing.gap before (some t))
    have hq : q.line = p.line := line_after_gap before (some t) p
    have hafter : (q.after t.write).line = p.line := (line_after (Token.not_mem_write ht) q).trans hq
    obtain ⟨_, hreads, taken, rfl, hmap, hall⟩ :=
      ih hline (some t) (q.after t.write) (by rw [hafter]; exact hr)
    refine ⟨⟨t, q⟩ :: (taken ++ rest), ?_, ⟨t, q⟩ :: taken, rfl, by rw [List.map_cons, hmap], ?_⟩
    · rw [writeBehind, List.append_assoc, List.append_assoc]
      refine reads_blanks (fun c hc => (spacing.isBlank_of_mem_gap hc).1) ?_
      exact reads_token (Token.spells_write ht) (isEndedBy_of_mem_writeBehind hline t cs) hreads
    · intro u hu
      rcases List.mem_cons.1 hu with rfl | hu
      · exact hq
      · exact (hall u hu).trans hafter

/-- What is written in lines is read as their tokens. -/
theorem exists_reads_writeLines {lines : List (List Token)}
    (h : ∀ line ∈ lines, ∀ t ∈ line, t.IsWritable) (n : Nat) :
    ∃ ts, Reads ⟨n, 1⟩ (spacing.writeLines lines) ts ∧ Rows n lines ts [] := by
  induction lines generalizing n with
  | nil => exact ⟨[], reads_nil _, rfl⟩
  | cons line lines ih =>
    obtain ⟨rest, hrest, hrows⟩ := ih (fun l hl => h l (List.mem_cons_of_mem _ hl)) (n + 1)
    obtain ⟨ts, hts, hrow⟩ :=
      exists_reads_writeBehind (h line List.mem_cons_self) none ⟨n, 1⟩ hrest
    exact ⟨ts, hts, rest, hrow, hrows⟩

end Spacing

/-! ## Parts of lines -/

variable {n : Nat} {line line' : List Token} {lines lines' : List (List Token)}
variable {ts rest : List Located}

/-- A line without tokens leaves all tokens. -/
theorem row_nil : Row n [] ts rest ↔ rest = ts := by
  constructor
  · rintro ⟨taken, rfl, hmap, _⟩
    rw [List.map_eq_nil_iff.1 hmap]
    rfl
  · rintro rfl
    exact ⟨[], rfl, rfl, by simp⟩

/-- A line's first token is on the line, and the others follow it there. -/
theorem row_cons {t : Token} : Row n (t :: line) ts rest ↔
    ∃ p ts', ts = ⟨t, p⟩ :: ts' ∧ p.line = n ∧ Row n line ts' rest := by
  constructor
  · rintro ⟨taken, rfl, hmap, hall⟩
    obtain ⟨u, tail, rfl, rfl, htail⟩ := List.map_eq_cons_iff.1 hmap
    exact ⟨u.position, tail ++ rest, rfl, hall u List.mem_cons_self, tail, rfl, htail,
      fun v hv => hall v (List.mem_cons_of_mem u hv)⟩
  · rintro ⟨p, _, rfl, hp, taken, rfl, hmap, hall⟩
    refine ⟨⟨t, p⟩ :: taken, rfl, by rw [List.map_cons, hmap], ?_⟩
    intro v hv
    rcases List.mem_cons.1 hv with rfl | hv
    · exact hp
    · exact hall v hv

/-- A line may be parted anywhere. -/
theorem row_append : Row n (line ++ line') ts rest ↔
    ∃ mid, Row n line ts mid ∧ Row n line' mid rest := by
  induction line generalizing ts with
  | nil => simp [row_nil]
  | cons t line ih =>
    simp only [List.cons_append, row_cons, ih]
    constructor
    · rintro ⟨p, ts', rfl, hp, mid, h₁, h₂⟩
      exact ⟨mid, ⟨p, ts', rfl, hp, h₁⟩, h₂⟩
    · rintro ⟨mid, ⟨p, ts', rfl, hp, h₁⟩, h₂⟩
      exact ⟨p, ts', rfl, hp, mid, h₁, h₂⟩

/-- One line is a row. -/
theorem rows_singleton : Rows n [line] ts rest ↔ Row n line ts rest := by
  constructor
  · rintro ⟨_, h, rfl⟩
    exact h
  · exact fun h => ⟨rest, h, rfl⟩

/-- Lines may be parted anywhere, with the number of those before counted. -/
theorem rows_append : Rows n (lines ++ lines') ts rest ↔
    ∃ mid, Rows n lines ts mid ∧ Rows (n + lines.length) lines' mid rest := by
  induction lines generalizing n ts with
  | nil => simp [Rows, Phrase.empty]
  | cons line lines ih =>
    simp only [List.cons_append, Rows, Phrase.seq, ih, List.length_cons, Nat.add_assoc,
      Nat.add_comm 1]
    constructor
    · rintro ⟨mid, h₁, mid', h₂, h₃⟩
      exact ⟨mid', ⟨mid, h₁, h₂⟩, h₃⟩
    · rintro ⟨mid', ⟨mid, h₁, h₂⟩, h₃⟩
      exact ⟨mid, h₁, mid', h₂, h₃⟩

end SchemaDiagram
