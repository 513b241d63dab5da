import SchemaDiagram.Document.Source

/-!
# SchemaDiagram.Proofs.Parser.Cursor

A cursor over tokens, with every move on record.

1. A `Cursor` stands at one of the tokens, at the mark that follows the last of them, or behind that
   mark, where it stays.  It keeps all places it has been at and the rounds of all loops.
2. A `Walk` moves a cursor.  Its one loop, `repeatWhile`, goes on while a test of the next token
   holds, and gives up after a number of rounds.
3. `IsSound` is what a walk keeps as it goes on, `Halts` what holds of where it ends early.
-/

namespace SchemaDiagram

/-! ## Cursors -/

/-- One round of a loop, from the place where it begins to the place where it is complete; none if
it halts before. -/
structure Round where
  start : Nat
  stop : Option Nat
  deriving DecidableEq, Repr

/-- A round ends ahead of where it begins, unless it halts. -/
def Round.Advances (r : Round) : Prop := ∀ i ∈ r.stop, r.start < i

/-- What a cursor moves over: tokens, the position of the mark behind them, and how many rounds a
loop may have. -/
structure Tape where
  tokens : List Located
  finish : Position
  limit : Nat
  deriving DecidableEq, Repr

/-- A place among tokens, the places before it, and the rounds of the loops that have ended. -/
structure Cursor extends Tape where
  index : Nat := 0
  visited : List Nat := [0]
  loops : List (List Round) := []
  deriving DecidableEq, Repr

namespace Cursor

/-- The token at the cursor; none at the end mark. -/
def token? (c : Cursor) : Option Located := c.tokens[c.index]?

/-- The tokens from the cursor on. -/
def rest (c : Cursor) : List Located := c.tokens.drop c.index

/-- The cursor one place further.  Behind the end mark there is none. -/
def next (c : Cursor) : Cursor :=
  if c.index ≤ c.tokens.length then
    { c with index := c.index + 1, visited := c.visited ++ [c.index + 1] }
  else c

/-- The cursor at the end of a loop. -/
def record (c : Cursor) (rounds : List Round) : Cursor := { c with loops := c.loops ++ [rounds] }

/-- No loop has more rounds than there are tokens and marks, and all rounds advance. -/
def LoopsAdvance (c : Cursor) : Prop :=
  ∀ rounds ∈ c.loops, rounds.length ≤ c.tokens.length + 1 ∧ ∀ r ∈ rounds, r.Advances

end Cursor

/-! ## Walks -/

/-- Why a walk ends early. -/
inductive Halt where
  | error (e : SyntaxError)
  /-- A loop has had all the rounds that it may have, and would go on. -/
  | overrun
  deriving DecidableEq, Repr

/-- Moves a cursor, and gives a value or halts. -/
def Walk (α : Type) : Type := Cursor → Except Halt α × Cursor

namespace Walk

/-- Stays. -/
protected def pure (a : α) : Walk α := fun c => (.ok a, c)

/-- One walk and then another, which may depend on the value of the first. -/
protected def bind (w : Walk α) (f : α → Walk β) : Walk β := fun c =>
  match w c with
  | (.error h, c') => (.error h, c')
  | (.ok a, c') => f a c'

instance : Monad Walk where
  pure := Walk.pure
  bind := Walk.bind

/-- The token at the cursor. -/
def peek : Walk (Option Token) := fun c => (.ok (c.token?.map (·.token)), c)

/-- The token behind the one at the cursor. -/
def peekSecond : Walk (Option Token) := fun c => (.ok (c.tokens[c.index + 1]?.map (·.token)), c)

/-- The position of the token at the cursor, or of the end mark. -/
def position : Walk Position := fun c => (.ok (c.token?.elim c.finish (·.position)), c)

/-- Moves on by one place, whatever is there. -/
def advance : Walk (Option Located) := fun c => (.ok c.token?, c.next)

/-- Halts at a token, or at the end mark. -/
def failAt (t? : Option Located) (e : Expected) : Walk α := fun c =>
  (.error (.error (match t? with
    | some t => .unexpected t.token e t.position
    | none => .unexpectedEnd e c.finish)), c)

/-- Halts at the cursor. -/
def fail (e : Expected) : Walk α := fun c => failAt c.token? e c

/-- Moves past a token if it is of a kind. -/
def take? (f : Token → Option α) : Walk (Option α) := do
  match (← peek).bind f with
  | some a =>
    let _ ← advance
    return some a
  | none => return none

/-- Moves past a token, which has to be of a kind. -/
def take (f : Token → Option α) (e : Expected) : Walk α := do
  match (← peek).bind f with
  | some a =>
    let _ ← advance
    return a
  | none => fail e

/-- Moves past a token if it passes a test; whether it did. -/
def accept (test : Token → Bool) : Walk Bool := do
  if (← peek).any test then
    let _ ← advance
    return true
  else
    return false

/-- Moves past two tokens if they pass a test each; whether they did. -/
def acceptBoth (first second : Token → Bool) : Walk Bool := do
  if (← peek).any first && (← peekSecond).any second then
    let _ ← advance
    let _ ← advance
    return true
  else
    return false

/-- A symbol that has to come next. -/
def symbol (s : Symbol) (e : Expected) : Walk Unit :=
  take (fun t => if Parser.is s t then some () else none) e

/-- A name that has to come next. -/
def name (e : Expected) : Walk String := take Token.name? e

/-- A walk that must not begin at the end mark. -/
def beforeEnd (e : Expected) (w : Walk α) : Walk α := do
  if (← peek).isSome then w else fail e

/-! ## Loops -/

/-- Up to `left` more rounds of a loop, those before them on record. -/
def rounds (go : σ → Option Token → Bool) (body : σ → Walk σ) :
    (left : Nat) → (past : List Round) → σ → Walk σ
  | 0, past, s => fun c =>
    if go s (c.token?.map (·.token)) then (.error .overrun, c.record past)
    else (.ok s, c.record past)
  | left + 1, past, s => fun c =>
    if go s (c.token?.map (·.token)) then
      match body s c with
      | (.error h, c') => (.error h, c'.record (past ++ [⟨c.index, none⟩]))
      | (.ok s', c') => rounds go body left (past ++ [⟨c.index, some c'.index⟩]) s' c'
    else (.ok s, c.record past)

/-- Rounds while a test of the token at the cursor holds. -/
def repeatWhile (go : σ → Option Token → Bool) (body : σ → Walk σ) (s : σ) : Walk σ := fun c =>
  rounds go body c.limit [] s c

/-- Moves past all tokens of a kind up to the first that is not. -/
def takeAll (f : Token → Option α) : Walk (List α) :=
  repeatWhile (fun _ t? => (t?.bind f).isSome) (fun as => do
    let t? ← advance
    return as ++ (t?.bind (f ·.token)).toList) []

/-- Items up to a token, or the end mark, that passes a test. -/
def repeatUntil (stop : Option Token → Bool) (item : Walk α) : Walk (List α) :=
  repeatWhile (fun _ t? => !stop t?) (fun as => do
    let a ← item
    return as ++ [a]) []

/-- Items up to a closing symbol, and past it. -/
def manyUntil (close : Symbol) (item : Walk α) : Walk (List α) := do
  let items ← repeatUntil (·.any (Parser.is close)) item
  let _ ← advance
  return items

end Walk

/-! ## Where a cursor may be -/

namespace Cursor

variable {c c' : Cursor} {t : Located} {ts : List Located}

/-- A cursor that has kept within the end mark, in loops that advance, and whose loops may have more
rounds than there are tokens. -/
structure IsSound (c : Cursor) : Prop where
  inside : c.index ≤ c.tokens.length
  visited : ∀ i ∈ c.visited, i ≤ c.tokens.length
  loops : c.LoopsAdvance
  limit : c.tokens.length < c.limit

/-- A cursor that a walk has moved to where the given tokens are left. -/
structure Reaches (c c' : Cursor) (ts : List Located) : Prop where
  tape : c'.toTape = c.toTape
  sound : c'.IsSound
  rest : c'.rest = ts

/-- A cursor where a walk has halted.  It has passed the end mark if the end of a block is missing
there, and only then. -/
structure Halts (c c' : Cursor) (m : Mismatch) : Prop where
  tape : c'.toTape = c.toTape
  visited : ∃ before, c'.visited =
      before ++ (if m = ⟨.closeBlock, []⟩ then [c.tokens.length + 1] else []) ∧
    ∀ i ∈ before, i ≤ c.tokens.length
  loops : c'.LoopsAdvance

/-- The token at a cursor is the first of those that are left. -/
theorem head?_rest (c : Cursor) : c.rest.head? = c.token? := List.head?_drop

/-- As many tokens are left as the cursor has not passed. -/
theorem length_rest (c : Cursor) : c.rest.length = c.tokens.length - c.index := List.length_drop

/-- A cursor with a token left is before the end mark. -/
theorem index_lt_of_rest_cons (h : c.rest = t :: ts) : c.index < c.tokens.length := by
  have hlen := c.length_rest
  rw [h, List.length_cons] at hlen
  omega

theorem IsSound.reaches_self (hc : c.IsSound) : c.Reaches c c.rest := ⟨rfl, hc, rfl⟩

/-- At a token there is a next place. -/
theorem IsSound.reaches_next (hc : c.IsSound) (h : c.rest = t :: ts) : c.Reaches c.next ts := by
  have hlt := index_lt_of_rest_cons h
  rw [next, if_pos hc.inside]
  refine ⟨rfl, ⟨hlt, ?_, hc.loops, hc.limit⟩, ?_⟩
  · exact List.forall_mem_append.2 ⟨hc.visited, by simpa using Nat.succ_le_of_lt hlt⟩
  · rw [rest, List.drop_eq_getElem_cons hlt] at h
    exact (List.cons.inj h).2

/-- A walk may halt where it is, unless it lacks the end of a block. -/
theorem IsSound.halts_self (hc : c.IsSound) {e : Expected} (he : e ≠ .closeBlock) :
    c.Halts c ⟨e, ts⟩ := by
  refine ⟨rfl, ⟨c.visited, ?_, hc.visited⟩, hc.loops⟩
  rw [if_neg (he ∘ congrArg Mismatch.expected), List.append_nil]

/-- At the end mark, the next place is the one behind it. -/
theorem IsSound.halts_next (hc : c.IsSound) (h : c.rest = []) :
    c.Halts c.next ⟨.closeBlock, []⟩ := by
  have hend : c.index = c.tokens.length := by
    have hlen := c.length_rest
    have := hc.inside
    rw [h, List.length_nil] at hlen
    omega
  rw [next, if_pos hc.inside]
  exact ⟨rfl, ⟨c.visited, by rw [if_pos rfl, hend], hc.visited⟩, hc.loops⟩

/-- Behind the end mark nothing is left, as at the mark itself. -/
theorem IsSound.rest_next (hc : c.IsSound) (h : c.rest = []) : c.next.rest = [] := by
  rw [rest, List.drop_eq_nil_iff] at h
  rw [next, if_pos hc.inside, rest, List.drop_eq_nil_iff]
  exact Nat.le_succ_of_le h

/-- What is reached from where a walk has gone is reached from where it began. -/
theorem Reaches.trans {c'' : Cursor} (h : c.Reaches c' ts) {ts' : List Located}
    (h' : c'.Reaches c'' ts') : c.Reaches c'' ts' := ⟨h'.tape.trans h.tape, h'.sound, h'.rest⟩

/-- A walk that halts later halts from where it began. -/
theorem Reaches.halts {c'' : Cursor} (h : c.Reaches c' ts) {m : Mismatch}
    (h' : c'.Halts c'' m) : c.Halts c'' m := by
  have htape := h.tape
  refine ⟨h'.tape.trans htape, ?_, h'.loops⟩
  rw [← congrArg Tape.tokens htape]
  exact h'.visited

/-- Fewer tokens are left where a cursor has moved forward. -/
theorem Reaches.index_lt (h : c.Reaches c' ts) (hlt : ts.length < c.rest.length) :
    c.index < c'.index := by
  have := c'.length_rest
  rw [h.rest, congrArg Tape.tokens h.tape] at this
  have := c.length_rest
  omega

/-- A loop is put on record with rounds that advance. -/
theorem LoopsAdvance.record (h : c.LoopsAdvance) {rounds : List Round}
    (hlen : rounds.length ≤ c.tokens.length + 1) (hadv : ∀ r ∈ rounds, r.Advances) :
    (c.record rounds).LoopsAdvance := by
  refine List.forall_mem_append.2 ⟨h, ?_⟩
  simpa using ⟨hlen, hadv⟩

end Cursor

end SchemaDiagram
