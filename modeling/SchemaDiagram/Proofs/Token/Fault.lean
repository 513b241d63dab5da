import SchemaDiagram.Proofs.Token.Prefix
import SchemaDiagram.Proofs.Token.Tiling

/-!
# SchemaDiagram.Proofs.Token.Fault

Where the reading of a text stops at a fault.

The position is that of a character of the text, and the text from this character on begins with
what is at fault (`Fault.Begins`): the character itself, the quote that is not closed, or the two
characters that open a comment.
-/

namespace SchemaDiagram

/-- A text begins with what is at fault. -/
def Fault.Begins : Fault → List Char → Prop
  | unexpectedCharacter c, cs => [c] <+: cs
  | unterminatedString, cs => ∃ quote ∈ ['\'', '"', '\x60'], [quote] <+: cs
  | unterminatedComment, cs => ['/', '*'] <+: cs

namespace Lexeme

/-- A quoted text that is not closed begins with its quote. -/
theorem begins_of_between {quote : Char} {make : String → Token} {cs : List Char} {fault : Fault}
    (hq : quote ∈ ['\'', '"', '\x60']) (h : between quote make cs = .error fault) :
    fault.Begins (quote :: cs) := by
  unfold between at h
  split at h
  · cases h
    exact ⟨quote, hq, List.prefix_append [quote] cs⟩
  · contradiction

/-- A text without a first piece begins with what is at fault. -/
theorem begins_of_first {c : Char} {cs : List Char} {fault : Fault} (h : first c cs = .error fault) :
    fault.Begins (c :: cs) := by
  unfold first at h
  split at h
  · contradiction
  · rename_i after
    unfold blockComment at h
    split at h
    · cases h
      exact List.prefix_append ['/', '*'] after
    · contradiction
  · contradiction
  · rename_i after
    unfold betweenTriple at h
    split at h
    · cases h
      exact ⟨'\'', by simp, List.prefix_append ['\''] _⟩
    · contradiction
  · exact begins_of_between (by simp) h
  · exact begins_of_between (by simp) h
  · exact begins_of_between (by simp) h
  · rename_i d after
    split at h
    · contradiction
    · cases h
      exact List.prefix_append ['#'] (d :: after)
  · split at h
    · contradiction
    · split at h
      · contradiction
      · split at h
        · contradiction
        · split at h
          · contradiction
          · cases h
            exact List.prefix_append [c] cs

/-- What is at fault is no blank. -/
theorem isBlank_of_first {c : Char} {cs : List Char} {fault : Fault}
    (h : first c cs = .error fault) : Text.isBlank c = false := by
  cases hc : Text.isBlank c with
  | false => rfl
  | true => rw [first_of_isBlank hc] at h; contradiction

/-- The pieces of a text end where the fault is. -/
theorem exists_fault (before cs : List Char) {fault : Fault} (h : (all cs).2 = some fault) :
    ∃ taken c rest, cs = taken ++ c :: rest ∧ first c rest = .error fault ∧
      finish (.behind before) (all cs).1 = .behind (before ++ taken) := by
  obtain ⟨taken, c, rest, hcs, hfirst, htaken⟩ := exists_all_of_fault cs h
  obtain ⟨_, _, -, hfinish, -⟩ := exists_tiling before taken (by rw [htaken])
  rw [htaken] at hfinish
  exact ⟨taken, c, rest, hcs, hfirst, hfinish⟩

end Lexeme

/-- Reading stops before what is at fault. -/
theorem Lexing.exists_fault {source : String} {fault : Fault}
    (h : (Lexing.of source).fault = some fault) :
    ∃ before c after, source.toList = before ++ c :: after ∧
      (Lexing.of source).finish = .behind before ∧ Text.isBlank c = false ∧
      fault.Begins (c :: after) := by
  obtain ⟨taken, c, rest, hcs, hfirst, hfinish⟩ := Lexeme.exists_fault [] source.toList h
  exact ⟨taken, c, rest, hcs, hfinish, Lexeme.isBlank_of_first hfirst,
    Lexeme.begins_of_first hfirst⟩

end SchemaDiagram
