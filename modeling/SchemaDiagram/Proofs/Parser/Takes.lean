import SchemaDiagram.Proofs.Grammar.Phrase
import SchemaDiagram.Proofs.Parser.Step

/-!
# SchemaDiagram.Proofs.Parser.Takes

Parsers that succeed.

`Takes p ts rest` says that `p` succeeds on `ts` and leaves `rest`, whatever its value is.  The
lemmas follow the ways in which parsers are put together: in sequence, by a look at the next tokens
and in repetitions.
-/

namespace SchemaDiagram.Parser

open Phrase

/-! ## Success -/

/-- The parser succeeds and leaves the given tokens. -/
def Takes (p : Parser α) (ts rest : List Located) : Prop := ∃ a, p ts = .ok (a, rest)

theorem takes_pure (a : α) (ts : List Located) : Takes (pure a) ts ts := ⟨a, rfl⟩

/-- A sequence takes what its parts take, if the second does so whatever the first gives. -/
theorem Takes.bind {p : Parser α} {f : α → Parser β} {ts mid rest : List Located}
    (hp : Takes p ts mid) (hf : ∀ a, Takes (f a) mid rest) : Takes (p >>= f) ts rest := by
  obtain ⟨a, ha⟩ := hp
  obtain ⟨b, hb⟩ := hf a
  exact ⟨b, (bind_of_ok ha).trans hb⟩

/-- A sequence takes what its parts take, if the second does so for what the first gives. -/
theorem takes_bind_of_ok {p : Parser α} {f : α → Parser β} {ts mid rest : List Located} {a : α}
    (hp : p ts = .ok (a, mid)) (hf : Takes (f a) mid rest) : Takes (p >>= f) ts rest := by
  obtain ⟨b, hb⟩ := hf
  exact ⟨b, (bind_of_ok hp).trans hb⟩

/-- A token of the kind is taken. -/
theorem takes_take {f : Token → Option α} {kind : Token → Prop} {e : Expected}
    (hk : ∀ {t}, (∃ a, f t = some a) ↔ kind t) {ts rest : List Located} (h : token kind ts rest) :
    Takes (take f e) ts rest := by
  obtain ⟨t, rfl, ht⟩ := h
  obtain ⟨a, ha⟩ := hk.2 ht
  exact ⟨a, take_of_some ha⟩

/-- A symbol is taken. -/
theorem takes_symbol {s : Symbol} {e : Expected} {ts rest : List Located}
    (h : Phrase.symbol s ts rest) : Takes (Parser.symbol s e) ts rest :=
  ⟨(), symbol_eq_ok.2 h⟩

section

variable {p q : Parser α} {t u : Located} {ts rest : List Located}

/-- A choice by the next token goes on behind a token that passes the test. -/
theorem takes_accept_then {test : Token → Bool} (ht : test t.token = true) (h : Takes p ts rest) :
    Takes (do if ← accept test then p else q) (t :: ts) rest := by
  unfold Takes
  rw [accept_then_of_true ht]
  exact h

/-- A choice by the next token goes on in front of a token that fails the test. -/
theorem takes_accept_else {test : Token → Bool} (hs : Stops test ts) (h : Takes q ts rest) :
    Takes (do if ← accept test then p else q) ts rest := by
  unfold Takes
  rw [accept_then_of_stops hs]
  exact h

/-- A choice by two tokens goes on behind tokens that pass their tests. -/
theorem takes_acceptBoth_then {first second : Token → Bool} (ht : first t.token = true)
    (hu : second u.token = true) (h : Takes p ts rest) :
    Takes (do if ← acceptBoth first second then p else q) (t :: u :: ts) rest := by
  unfold Takes
  rw [acceptBoth_then_of_true ht hu]
  exact h

/-- A choice by two tokens goes on in front of tokens that do not both pass. -/
theorem takes_acceptBoth_else {first second : Token → Bool} (hn : ¬ BeginsBoth first second ts)
    (h : Takes q ts rest) : Takes (do if ← acceptBoth first second then p else q) ts rest := by
  unfold Takes
  rw [acceptBoth_then_of_not hn]
  exact h

end

/-- A run of tokens of a kind is taken in front of a token of another kind. -/
theorem takes_takeAll {f : Token → Option α} {kind : Token → Prop}
    (hk : ∀ {t}, (∃ a, f t = some a) ↔ kind t) {ts rest : List Located}
    (h : star (token kind) ts rest) (hs : Stops (fun t => (f t).isSome) rest) :
    Takes (takeAll f) ts rest := by
  induction h with
  | nil => exact ⟨[], takeAll_of_stops hs⟩
  | cons ht _ ih =>
    obtain ⟨t, rfl, ht⟩ := ht
    obtain ⟨a, ha⟩ := hk.2 ht
    obtain ⟨as, has⟩ := ih hs
    refine ⟨a :: as, ?_⟩
    rw [takeAll_of_some ha, bind_of_ok has]
    rfl

/-! ## Repetition -/

section

variable {stop : List Located → Bool} {item : Parser α} {hi : Advances item} {a : Phrase}
variable {ts mid rest : List Located}

/-- A repetition takes nothing where its end is reached. -/
theorem takes_repeatUntil_of_stop (hs : stop ts = true) :
    Takes (repeatUntil stop item hi) ts ts :=
  ⟨[], repeatUntil_of_stop hs⟩

/-- A repetition takes an item and what it takes behind the item. -/
theorem Takes.repeat (hs : stop ts = false) (h₁ : Takes item ts mid)
    (h₂ : Takes (repeatUntil stop item hi) mid rest) :
    Takes (repeatUntil stop item hi) ts rest := by
  obtain ⟨x, hx⟩ := h₁
  obtain ⟨xs, hxs⟩ := h₂
  refine ⟨x :: xs, ?_⟩
  rw [repeatUntil_of_ok hs hx, bind_of_ok hxs]
  rfl

/-- A repetition is taken if each item is, in front of tokens with a property `P` that the items
themselves and what follows the last one have. -/
theorem takes_repeatUntil {P : List Located → Prop} (h : star a ts rest) (hstop : stop rest = true)
    (hrest : P rest)
    (hitem : ∀ ts mid, a ts mid → P mid → stop ts = false ∧ P ts ∧ Takes item ts mid) :
    P ts ∧ Takes (repeatUntil stop item hi) ts rest := by
  induction h with
  | nil => exact ⟨hrest, takes_repeatUntil_of_stop hstop⟩
  | cons h _ ih =>
    obtain ⟨hmid, hmore⟩ := ih hstop hrest
    obtain ⟨hs, hts, hone⟩ := hitem _ _ h hmid
    exact ⟨hts, hone.repeat hs hmore⟩

/-- Items up to a closing symbol are taken together with it. -/
theorem Takes.manyUntil {close : Symbol} (h : Takes (repeatUntil (begins close) item hi) ts mid)
    (hclose : Phrase.symbol close mid rest) : Takes (manyUntil close item hi) ts rest := by
  obtain ⟨t, rfl, ht⟩ := hclose
  exact h.bind fun _ => Takes.bind ⟨true, accept_of_true (is_eq_true.2 ht)⟩ fun _ => takes_pure _ _

end

/-- A parser that refuses the end of the input takes what the parser in it takes before a token. -/
theorem takes_beforeEnd {p : Parser α} {e : Expected} {t : Located} {ts rest : List Located}
    (h : Takes p (t :: ts) rest) : Takes (p.beforeEnd e) (t :: ts) rest := h

end SchemaDiagram.Parser
