import SchemaDiagram.Proofs.Grammar.Walk

/-!
# SchemaDiagram.Proofs.Document.Progress

Reading a document moves forward, up to its end and not past it.

The walk over the tokens of a document gives the declarations that the parser gives, or halts with
the same error, however many more rounds its loops might have.  It has been behind the end mark only
if it halts there because a block lacks its end.
-/

namespace SchemaDiagram

open Document (Declarations)

namespace Cursor

/-- A cursor at the first of some tokens.  A loop may have `spare` rounds more than there are tokens
and marks. -/
def start (tokens : List Located) (finish : Position) (spare : Nat) : Cursor :=
  { tokens, finish, limit := tokens.length + 1 + spare }

/-- At the start nothing has been visited, and every loop has rounds enough. -/
theorem isSound_start (tokens : List Located) (finish : Position) (spare : Nat) :
    (start tokens finish spare).IsSound where
  inside := Nat.zero_le _
  visited := by simp [start]
  loops := by simp [LoopsAdvance, start]
  limit := by
    show tokens.length < tokens.length + 1 + spare
    omega

/-- No token is left at the end mark, and only there. -/
theorem IsSound.index_eq {c : Cursor} (hc : c.IsSound) (h : c.rest = []) :
    c.index = c.tokens.length :=
  Nat.le_antisymm hc.inside (List.drop_eq_nil_iff.1 h)

end Cursor

/-- A mismatch is an unexpected end exactly if no token is left. -/
theorem SyntaxError.ofMismatch_eq_unexpectedEnd {finish : Position} {m : Mismatch} {e : Expected} :
    ofMismatch finish m = .unexpectedEnd e finish ↔ m = ⟨e, []⟩ := by
  obtain ⟨e', ts⟩ := m
  cases ts <;> simp [ofMismatch]

/-- Declarations are read to the end. -/
theorem Grammar.eq_nil_of_declarations {ts rest : List Located} {d : Declarations}
    (h : declarations ts = .ok (d, rest)) : rest = [] := by
  obtain ⟨ds, mid, hds, hd⟩ := Parser.bind_eq_ok.1 h
  obtain ⟨-, rfl⟩ := Parser.pure_eq_ok.1 hd
  exact List.isEmpty_iff.1 (Walk.ends_of_repeatUntil hds)

namespace Walk

/-- Over all tokens of a document, a walk ends as reading them does.  All places it has been at lie
within the end mark, unless a block lacks its end: then the last of them lies behind it.  In every
loop it has moved forward in each round that did not halt, and there were no more rounds than
tokens, the mark among them.  Where there is no error, it has come to the end mark. -/
theorem declarations_progress (tokens : List Located) (finish : Position) (spare : Nat) :
    ∃ c, declarations (.start tokens finish spare) =
        ((Declarations.ofTokens tokens finish).mapError Halt.error, c) ∧
      (Declarations.ofTokens tokens finish ≠ .error (.unexpectedEnd .closeBlock finish) →
        ∀ i ∈ c.visited, i ≤ tokens.length) ∧
      (Declarations.ofTokens tokens finish = .error (.unexpectedEnd .closeBlock finish) →
        ∃ before, c.visited = before ++ [tokens.length + 1] ∧ ∀ i ∈ before, i ≤ tokens.length) ∧
      (∀ rounds ∈ c.loops, rounds.length ≤ tokens.length + 1 ∧ ∀ r ∈ rounds, r.Advances) ∧
      ∀ d, Declarations.ofTokens tokens finish = .ok d → c.index = tokens.length := by
  have h := follows_declarations (Cursor.isSound_start tokens finish spare)
  cases hr : Grammar.declarations tokens with
  | error m =>
    have hof : Declarations.ofTokens tokens finish = .error (.ofMismatch finish m) := by
      rw [Declarations.ofTokens, hr]
    obtain ⟨c, hw, htape, ⟨before, hvisited, hbefore⟩, hloops⟩ := h.error hr
    rw [Cursor.LoopsAdvance, congrArg Tape.tokens htape] at hloops
    rw [hof, ne_eq, Except.error.injEq, SyntaxError.ofMismatch_eq_unexpectedEnd]
    refine ⟨c, hw, fun hm => ?_, fun hm => ⟨before, ?_, hbefore⟩, hloops, by simp⟩
    · rw [hvisited, if_neg hm, List.append_nil]
      exact hbefore
    · rw [hvisited, if_pos hm]
      rfl
  | ok r =>
    obtain ⟨d, rest⟩ := r
    obtain rfl := Grammar.eq_nil_of_declarations hr
    have hof : Declarations.ofTokens tokens finish = .ok d := by
      rw [Declarations.ofTokens, hr]
    obtain ⟨c, hw, htape, hsound, hrest⟩ := h.ok hr
    have htokens : c.tokens = tokens := congrArg Tape.tokens htape
    rw [hof, ← htokens]
    exact ⟨c, htokens ▸ hw, fun _ => hsound.visited, by simp, hsound.loops,
      fun _ _ => hsound.index_eq hrest⟩

/-- A block that is never closed: the walk ends behind the end mark, which is at the third place. -/
example :
    let tokens : List Located := [⟨.identifier "note", ⟨1, 1⟩⟩, ⟨.symbol .openBrace, ⟨1, 6⟩⟩]
    (declarations (.start tokens ⟨1, 7⟩ 0)).2.visited = [0, 1, 2, 3] := by
  decide

end Walk

end SchemaDiagram
