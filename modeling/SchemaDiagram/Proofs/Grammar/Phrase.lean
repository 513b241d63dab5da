import SchemaDiagram.Token

/-!
# SchemaDiagram.Proofs.Grammar.Phrase

Grammars as relations.

A `Phrase` relates a list of tokens to the tokens that are left behind a part of a document.  The
parts are put together as in a grammar on paper: in sequence, by choice, left out or repeated, and
a choice is free wherever the grammar leaves it open.  What is left belongs to the relation because
a few parts depend on the token that follows them (`ahead`).  All others are `Free`: what they
take does not depend on what follows.
-/

namespace SchemaDiagram

/-- A part of a grammar: tokens, and what is left of them behind the part. -/
def Phrase : Type := List Located → List Located → Prop

namespace Phrase

/-! ## Building phrases -/

/-- No token. -/
def empty : Phrase := fun ts rest => ts = rest

/-- One token of a kind. -/
def token (kind : Token → Prop) : Phrase := fun ts rest => ∃ t, ts = t :: rest ∧ kind t.token

/-- A symbol. -/
def symbol (s : Symbol) : Phrase := token (· = .symbol s)

/-- A keyword. -/
def keyword (k : Keyword) : Phrase := token (·.isKeyword k = true)

/-- One part behind the other. -/
def seq (a b : Phrase) : Phrase := fun ts rest => ∃ mid, a ts mid ∧ b mid rest

/-- Parts behind each other. -/
def sequence : List Phrase → Phrase
  | [] => empty
  | a :: as => seq a (sequence as)

/-- One of some parts. -/
def choice (as : List Phrase) : Phrase := fun ts rest => ∃ a ∈ as, a ts rest

/-- A part that may be left out. -/
def optional (a : Phrase) : Phrase := fun ts rest => ts = rest ∨ a ts rest

/-- A part any number of times. -/
inductive star (a : Phrase) : Phrase
  | nil {ts : List Located} : star a ts ts
  | cons {ts mid rest : List Located} : a ts mid → star a mid rest → star a ts rest

/-- A part that stands only where the tokens from there on have a property. -/
def ahead (property : List Located → Prop) (a : Phrase) : Phrase := fun ts rest =>
  property ts ∧ a ts rest

/-! ## Choices -/

section

variable {a b c d : Phrase} {ts rest : List Located}

theorem choice_two : choice [a, b] ts rest ↔ a ts rest ∨ b ts rest := by simp [choice]

theorem choice_three : choice [a, b, c] ts rest ↔ a ts rest ∨ b ts rest ∨ c ts rest := by
  simp [choice]

theorem choice_four :
    choice [a, b, c, d] ts rest ↔ a ts rest ∨ b ts rest ∨ c ts rest ∨ d ts rest := by
  simp [choice]

end

/-! ## Parts that do not depend on what follows -/

/-- What the part takes, it takes in front of any tokens. -/
def Free (a : Phrase) : Prop :=
  ∀ ⦃ts rest⦄, a ts rest → ∃ taken, ts = taken ++ rest ∧ ∀ rest', a (taken ++ rest') rest'

/-- No token is taken in front of anything. -/
theorem free_empty : Free empty := by
  intro ts rest h
  cases h
  exact ⟨[], rfl, fun _ => rfl⟩

/-- A token is taken for what it is. -/
theorem free_token (kind : Token → Prop) : Free (token kind) := by
  rintro ts rest ⟨t, rfl, ht⟩
  exact ⟨[t], rfl, fun _ => ⟨t, rfl, ht⟩⟩

/-- What follows the first of two parts is the second one, and what follows that. -/
theorem Free.seq {a b : Phrase} (ha : Free a) (hb : Free b) : Free (seq a b) := by
  rintro ts rest ⟨mid, h₁, h₂⟩
  obtain ⟨xs, rfl, hxs⟩ := ha h₁
  obtain ⟨ys, rfl, hys⟩ := hb h₂
  refine ⟨xs ++ ys, by simp, fun rest' => ⟨ys ++ rest', ?_, hys rest'⟩⟩
  rw [List.append_assoc]
  exact hxs _

/-- A choice is free if each of its parts is. -/
theorem free_choice {as : List Phrase} (h : ∀ a ∈ as, Free a) : Free (choice as) := by
  rintro ts rest ⟨a, ha, hts⟩
  obtain ⟨xs, rfl, hxs⟩ := h a ha hts
  exact ⟨xs, rfl, fun rest' => ⟨a, ha, hxs rest'⟩⟩

/-- A part that is free may be left out in front of anything. -/
theorem Free.optional {a : Phrase} (ha : Free a) : Free (optional a) := by
  rintro ts rest (rfl | h)
  · exact ⟨[], rfl, fun _ => .inl rfl⟩
  · obtain ⟨xs, rfl, hxs⟩ := ha h
    exact ⟨xs, rfl, fun rest' => .inr (hxs rest')⟩

/-- A part that is free can be repeated, and the end of its repetition is free as well. -/
theorem Free.star {a : Phrase} (ha : Free a) : Free (star a) := by
  intro ts rest h
  induction h with
  | nil => exact ⟨[], rfl, fun _ => .nil⟩
  | cons h₁ _ ih =>
    obtain ⟨xs, rfl, hxs⟩ := ha h₁
    obtain ⟨ys, rfl, hys⟩ := ih
    refine ⟨xs ++ ys, by simp, fun rest' => ?_⟩
    rw [List.append_assoc]
    exact .cons (hxs _) (hys rest')

/-! ## Repetition -/

/-- Repetitions behind each other are one repetition. -/
theorem star.append {a : Phrase} {ts mid rest : List Located} (h₁ : star a ts mid)
    (h₂ : star a mid rest) : star a ts rest := by
  induction h₁ with
  | nil => exact h₂
  | cons h _ ih => exact .cons h (ih h₂)

theorem star.single {a : Phrase} {ts rest : List Located} (h : a ts rest) : star a ts rest :=
  .cons h .nil

end Phrase

end SchemaDiagram
