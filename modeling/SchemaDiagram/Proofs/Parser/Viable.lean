import SchemaDiagram.Proofs.Grammar.Completion
import SchemaDiagram.Proofs.Parser.Step

/-!
# SchemaDiagram.Proofs.Parser.Viable

Parsers that fail at the right token.

`Viable p a` says that where `p` fails, the tokens it has taken can be completed to the part `a` of
the grammar.  A sequence is viable if its parts are and the later ones can be completed from the
start; a repetition is if its items are.
-/

namespace SchemaDiagram.Parser

open Phrase

/-! ## Viability -/

/-- Where the parser fails on these tokens, the ones it has taken can be completed to the part. -/
def ViableAt (p : Parser α) (a : Phrase) (ts : List Located) : Prop :=
  ∀ ⦃e rest⦄, p ts = .error ⟨e, rest⟩ → ∃ taken, ts = taken ++ rest ∧ Completes a taken

/-- Where the parser fails, the tokens it has taken can be completed to the part. -/
def Viable (p : Parser α) (a : Phrase) : Prop := ∀ ts, ViableAt p a ts

section

variable {p q : Parser α} {f : α → Parser β} {a b c : Phrase} {ts : List Located}

/-- What can be completed to a part can be completed to any part that holds more. -/
theorem ViableAt.mono (hp : ViableAt p a ts) (h : ∀ ts rest, a ts rest → b ts rest) :
    ViableAt p b ts := by
  intro e rest herr
  obtain ⟨taken, rfl, ha⟩ := hp herr
  exact ⟨taken, rfl, ha.mono h⟩

/-- The part may be made larger. -/
theorem Viable.mono (hp : Viable p a) (h : ∀ ts rest, a ts rest → b ts rest) : Viable p b :=
  fun ts => (hp ts).mono h

/-- A parser that does what another one does fails where that one fails. -/
theorem ViableAt.of_eq (hq : ViableAt q a ts) (h : p ts = q ts) : ViableAt p a ts :=
  fun _ _ herr => hq (h.symm.trans herr)

/-- A parser that takes a token and goes on viably is viable. -/
theorem ViableAt.cons {t : Located} (hq : ViableAt q b ts) (h : p (t :: ts) = q ts)
    (hcons : ∀ ts rest, b ts rest → a (t :: ts) rest) : ViableAt p a (t :: ts) := by
  intro e rest herr
  obtain ⟨taken, rfl, added, hadded⟩ := hq (h.symm.trans herr)
  exact ⟨t :: taken, rfl, added, fun more rest hm => hcons _ _ (hadded more rest hm)⟩

/-- A parser that fails before the next token is viable. -/
theorem ViableAt.of_error {e : Expected} (ha : Completes a []) (h : p ts = .error ⟨e, ts⟩) :
    ViableAt p a ts := by
  intro e' rest herr
  cases h.symm.trans herr
  exact ⟨[], rfl, ha⟩

/-- A parser that never fails is viable. -/
theorem viableAt_of_ok {r : α × List Located} (h : p ts = .ok r) : ViableAt p a ts :=
  fun _ _ herr => by rw [h] at herr; contradiction

theorem viable_pure (x : α) : Viable (pure x : Parser α) a := fun _ => viableAt_of_ok rfl

/-- A parser that fails at once is viable if the part can be put there. -/
theorem viable_fail {e : Expected} (ha : Completes a []) : Viable (fail e : Parser α) a :=
  fun _ => .of_error ha rfl

/-- A sequence is viable if its first part is one whatever follows, and its second part can be
completed from the start. -/
theorem ViableAt.bind (hp : ViableAt p a ts)
    (hfree : ∀ x mid, p ts = .ok (x, mid) → ∃ taken, ts = taken ++ mid ∧
      ∀ rest, a (taken ++ rest) rest)
    (hb : Completes b []) (hf : ∀ x mid, p ts = .ok (x, mid) → ViableAt (f x) b mid) :
    ViableAt (p >>= f) (seq a b) ts := by
  intro e rest herr
  rcases bind_eq_error.1 herr with h | ⟨x, mid, h, hfx⟩
  · obtain ⟨taken, rfl, ha⟩ := hp h
    exact ⟨taken, rfl, ha.seq hb⟩
  · obtain ⟨xs, rfl, hxs⟩ := hfree x mid h
    obtain ⟨ys, rfl, hys⟩ := hf x mid h hfx
    exact ⟨xs ++ ys, by simp, hys.behind hxs⟩

/-- `ViableAt.bind` on all tokens, where the first part is one whatever follows. -/
theorem Viable.bind (hp : Viable p a) (hfree : Free a)
    (hsound : ∀ {ts x mid}, p ts = .ok (x, mid) → a ts mid) (hb : Completes b [])
    (hf : ∀ x, Viable (f x) b) : Viable (p >>= f) (seq a b) :=
  fun ts => (hp ts).bind (fun _ _ h => hfree (hsound h)) hb fun x mid _ => hf x mid

/-- A value may be changed afterwards. -/
theorem Viable.map {g : α → β} (hp : Viable p a) : Viable (do let x ← p; return g x) a := by
  intro ts e rest herr
  rcases bind_eq_error.1 herr with h | ⟨x, mid, _, h⟩
  · exact hp ts h
  · contradiction

/-- The part that follows may be completed together with it. -/
theorem Viable.followed (hp : Viable p a) (hb : Completes b []) : Viable p (seq a b) := by
  intro ts e rest herr
  obtain ⟨taken, rfl, ha⟩ := hp ts herr
  exact ⟨taken, rfl, ha.seq hb⟩

/-- A choice by the next token is viable if both sides are. -/
theorem Viable.accept_then {test : Token → Bool} (hp : Viable p a) (hq : Viable q b)
    (ha : ∀ t ts rest, test t.token = true → a ts rest → c (t :: ts) rest)
    (hb : ∀ ts rest, b ts rest → c ts rest) :
    Viable (do if ← accept test then p else q) c := by
  intro ts
  rcases begins_or_stops test ts with ⟨t, rest, rfl, ht⟩ | hs
  · exact (hp rest).cons (accept_then_of_true ht) fun ts rest h => ha t ts rest ht h
  · exact ((hq ts).mono hb).of_eq (accept_then_of_stops hs)

end

/-! ## The basic parsers -/

/-- A parser for one token is viable if some token is of its kind. -/
theorem viable_take {f : Token → Option α} {e : Expected} {kind : Token → Prop} {t : Token}
    (ht : kind t) : Viable (take f e) (token kind) := by
  intro ts
  rcases begins_or_stops (fun t => (f t).isSome) ts with ⟨u, rest, rfl, hu⟩ | hs
  · obtain ⟨a, ha⟩ := Option.isSome_iff_exists.1 hu
    exact viableAt_of_ok (take_of_some ha)
  · exact .of_error (completes_token ht) (take_of_stops hs)

theorem viable_symbol (s : Symbol) (e : Expected) : Viable (symbol s e) (Phrase.symbol s) :=
  viable_take rfl

/-- A run of tokens of one kind never fails. -/
theorem viable_takeAll (f : Token → Option α) (a : Phrase) : Viable (takeAll f) a := by
  intro ts
  obtain ⟨as, _, rest, _, _, _, h⟩ := exists_takeAll f ts
  exact viableAt_of_ok h

/-- A choice by the next two tokens is viable if both sides are. -/
theorem Viable.acceptBoth_then {first second : Token → Bool} {p q : Parser α} {a b c : Phrase}
    (hp : Viable p a) (hq : Viable q b)
    (ha : ∀ t u ts rest, first t.token = true → second u.token = true → a ts rest →
      c (t :: u :: ts) rest)
    (hb : ∀ ts rest, b ts rest → c ts rest) :
    Viable (do if ← acceptBoth first second then p else q) c := by
  intro ts
  by_cases h : BeginsBoth first second ts
  · obtain ⟨t, u, rest, rfl, ht, hu⟩ := h
    have hu' : ViableAt (fun ts => p ts.tail) (fun ts rest => ∃ ts', ts = u :: ts' ∧ a ts' rest)
        (u :: rest) :=
      (hp rest).cons rfl fun ts rest h => ⟨ts, rfl, h⟩
    refine hu'.cons (acceptBoth_then_of_true ht hu) ?_
    rintro _ rest ⟨ts, rfl, h⟩
    exact ha t u ts rest ht hu h
  · exact ((hq ts).mono hb).of_eq (acceptBoth_then_of_not h)

/-- A token that has to be there. -/
theorem Viable.beforeEnd {p : Parser α} {a : Phrase} (hp : Viable p a) (ha : Completes a [])
    (e : Expected) : Viable (p.beforeEnd e) a := by
  intro ts
  cases ts with
  | nil => exact .of_error ha rfl
  | cons t ts => exact (hp (t :: ts)).of_eq rfl

/-! ## Repetition -/

section

variable {stop : List Located → Bool} {item : Parser α} {hi : Advances item} {a close : Phrase}

/-- A repetition can be completed up to its end if each item and what follows it can.  `R ts` is what
an item before needs to know of tokens in the place of `ts`. -/
theorem viable_repeatUntil_of {R : List Located → List Located → Prop}
    (hitem : ∀ ts, stop ts = false → ViableAt item (ahead (R ts) (seq (star a) close)) ts)
    (hok : ∀ ts x mid, stop ts = false → stop mid = false → item ts = .ok (x, mid) →
      ∃ taken, ts = taken ++ mid ∧
        ∀ rest, R mid rest → R ts (taken ++ rest) ∧ a (taken ++ rest) rest)
    (ts : List Located) :
    ViableAt (repeatUntil stop item hi) (ahead (R ts) (seq (star a) close)) ts := by
  cases hs : stop ts with
  | true => exact viableAt_of_ok (repeatUntil_of_stop hs)
  | false =>
    intro e rest herr
    rw [repeatUntil_of_go hs] at herr
    -- by recursion on the tokens: the item at hand fails, or one of those behind it does
    rcases bind_eq_error.1 herr with h | ⟨x, mid, h, hmore⟩
    · exact hitem ts hs h
    have hmore : repeatUntil stop item hi mid = .error ⟨e, rest⟩ := by
      rcases bind_eq_error.1 hmore with h | ⟨_, _, _, h⟩
      · exact h
      · contradiction
    have hmid : stop mid = false := by
      cases hm : stop mid with
      | true => rw [repeatUntil_of_stop hm] at hmore; contradiction
      | false => rfl
    have : mid.length < ts.length := hi h
    obtain ⟨xs, rfl, hxs⟩ := hok ts x mid hs hmid h
    obtain ⟨ys, rfl, added, hadded⟩ := viable_repeatUntil_of hitem hok mid hmore
    refine ⟨xs ++ ys, by simp, added, fun more rest hm => ?_⟩
    obtain ⟨hR, mid', hstar, hclose⟩ := hadded more rest hm
    obtain ⟨hRts, ha⟩ := hxs _ hR
    rw [List.append_assoc, List.append_assoc, ← List.append_assoc ys]
    exact ⟨hRts, mid', .cons ha hstar, hclose⟩
termination_by ts.length

/-- `viable_repeatUntil_of` for items that need to know nothing of what follows them. -/
theorem viable_repeatUntil (hitem : Viable item (seq (star a) close)) (hfree : Free a)
    (hsound : ∀ ts x mid, stop ts = false → stop mid = false → item ts = .ok (x, mid) → a ts mid) :
    Viable (repeatUntil stop item hi) (seq (star a) close) := by
  intro ts
  refine (viable_repeatUntil_of (R := fun _ _ => True)
    (fun ts _ => (hitem ts).mono fun _ _ h => ⟨trivial, h⟩) ?_ ts).mono fun _ _ h => h.2
  intro ts x mid hs hm h
  obtain ⟨taken, rfl, htaken⟩ := hfree (hsound ts x mid hs hm h)
  exact ⟨taken, rfl, fun rest _ => ⟨trivial, htaken rest⟩⟩

/-- The closing symbol is there once the repetition has stopped. -/
theorem viableAt_manyUntil {close : Symbol} {b : Phrase} {ts : List Located}
    (h : ViableAt (repeatUntil (begins close) item hi) b ts) :
    ViableAt (manyUntil close item hi) b ts := by
  intro e rest herr
  rcases bind_eq_error.1 herr with herr | ⟨xs, mid, _, herr⟩
  · exact h herr
  · rcases bind_eq_error.1 herr with herr | ⟨_, _, _, herr⟩
    · obtain ⟨r, hr⟩ := exists_accept (is close) mid
      rw [hr] at herr
      contradiction
    · contradiction

/-- Items up to a closing symbol. -/
theorem viable_manyUntil {close : Symbol} {b : Phrase} (hitem : Viable item (seq (star a) b))
    (hfree : Free a) (hsound : ∀ ts x mid, begins close ts = false → begins close mid = false →
      item ts = .ok (x, mid) → a ts mid) :
    Viable (manyUntil close item hi) (seq (star a) b) :=
  fun ts => viableAt_manyUntil (viable_repeatUntil hitem hfree hsound ts)

end

end SchemaDiagram.Parser
