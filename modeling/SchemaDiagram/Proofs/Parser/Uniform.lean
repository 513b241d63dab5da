import SchemaDiagram.Proofs.Parser.Step

/-!
# SchemaDiagram.Proofs.Parser.Uniform

Two runs of a parser on lists with the same tokens.

Tokens carry their positions, and a parser could look at them.  `Uniform R p` says that it sees no
more of them than a relation `R` between lists keeps: on related lists it gives the same value or
misses the same thing, and leaves related lists.  A relation has to keep the tokens themselves
(`Tokenwise`); a parser that looks at nothing else is uniform for every such relation.
-/

namespace SchemaDiagram.Parser

/-! ## Related lists -/

/-- Related lists have the same first token and are related behind it. -/
class Tokenwise (R : List Located → List Located → Prop) : Prop where
  nil : ∀ {ts'}, R [] ts' → ts' = []
  cons : ∀ {t ts ts'}, R (t :: ts) ts' →
    ∃ t' rest, ts' = t' :: rest ∧ t'.token = t.token ∧ R ts rest

variable {R : List Located → List Located → Prop} [Tokenwise R] {ts ts' : List Located}

/-- Related lists pass the same tests of their first token. -/
theorem Tokenwise.stops_iff (h : R ts ts') {test : Token → Bool} :
    Stops test ts' ↔ Stops test ts := by
  cases ts with
  | nil => rw [Tokenwise.nil h]
  | cons t ts =>
    obtain ⟨t', rest, rfl, ht, -⟩ := Tokenwise.cons h
    rw [stops_cons, stops_cons, ht]

/-- Related lists pass the same tests of their first two tokens. -/
theorem Tokenwise.beginsBoth_or (h : R ts ts') (first second : Token → Bool) :
    (∃ t u rest t' u' rest', ts = t :: u :: rest ∧ ts' = t' :: u' :: rest' ∧ t'.token = t.token ∧
        u'.token = u.token ∧ R rest rest' ∧ first t.token = true ∧ second u.token = true) ∨
      ¬ BeginsBoth first second ts ∧ ¬ BeginsBoth first second ts' := by
  by_cases hb : BeginsBoth first second ts
  · obtain ⟨t, u, rest, rfl, ht, hu⟩ := hb
    obtain ⟨t', ts', rfl, ht', hrest⟩ := Tokenwise.cons h
    obtain ⟨u', rest', rfl, hu', hrest⟩ := Tokenwise.cons hrest
    exact .inl ⟨t, u, rest, t', u', rest', rfl, rfl, ht', hu', hrest, ht, hu⟩
  · refine .inr ⟨hb, ?_⟩
    rintro ⟨t', u', rest', rfl, ht', hu'⟩
    cases ts with
    | nil => exact absurd (Tokenwise.nil h) (by simp)
    | cons t ts =>
      obtain ⟨_, _, heq, ht, hrest⟩ := Tokenwise.cons h
      cases heq
      cases ts with
      | nil => exact absurd (Tokenwise.nil hrest) (by simp)
      | cons u ts =>
        obtain ⟨_, _, heq, hu, -⟩ := Tokenwise.cons hrest
        cases heq
        exact hb ⟨t, u, ts, rfl, ht ▸ ht', hu ▸ hu'⟩

/-! ## Two runs -/

/-- Two results with the same value or the same mistake, which leave related lists. -/
inductive Agree (R : List Located → List Located → Prop) :
    Except Mismatch (α × List Located) → Except Mismatch (α × List Located) → Prop
  | ok {rest rest'} (a : α) : R rest rest' → Agree R (.ok (a, rest)) (.ok (a, rest'))
  | error {rest rest'} (e : Expected) : R rest rest' → Agree R (.error ⟨e, rest⟩) (.error ⟨e, rest'⟩)

/-- On related lists the parser does the same. -/
def Uniform (R : List Located → List Located → Prop) (p : Parser α) : Prop :=
  ∀ ⦃ts ts'⦄, R ts ts' → Agree R (p ts) (p ts')

omit [Tokenwise R] in
/-- Where the parser succeeds, it does so on a related list. -/
theorem Uniform.exists_ok {p : Parser α} (hp : Uniform R p) (h : R ts ts') {a : α}
    {rest : List Located} (hok : p ts = .ok (a, rest)) :
    ∃ rest', p ts' = .ok (a, rest') ∧ R rest rest' := by
  have hagree := hp h
  generalize p ts' = r at hagree
  rw [hok] at hagree
  cases hagree with
  | ok a hrest => exact ⟨_, rfl, hrest⟩

omit [Tokenwise R] in
/-- Sequences agree if their first parts do and their second parts behind these. -/
theorem Agree.bind {p q : Parser α} {f g : α → Parser β} (h : Agree R (p ts) (q ts'))
    (hf : ∀ a rest rest', p ts = .ok (a, rest) → R rest rest' → Agree R (f a rest) (g a rest')) :
    Agree R ((p >>= f) ts) ((q >>= g) ts') := by
  generalize hp : p ts = r at h
  generalize hq : q ts' = r' at h
  cases h with
  | ok a hrest =>
    rw [bind_of_ok hp, bind_of_ok hq]
    exact hf a _ _ hp hrest
  | error e hrest =>
    rw [bind_of_error hp, bind_of_error hq]
    exact .error e hrest

omit [Tokenwise R] in
theorem uniform_pure (a : α) : Uniform R (pure a : Parser α) := fun _ _ h => .ok a h

omit [Tokenwise R] in
theorem uniform_fail (e : Expected) : Uniform R (fail e : Parser α) := fun _ _ h => .error e h

omit [Tokenwise R] in
/-- A sequence of uniform parsers is uniform. -/
theorem Uniform.bind {p : Parser α} {f : α → Parser β} (hp : Uniform R p)
    (hf : ∀ a, Uniform R (f a)) : Uniform R (p >>= f) :=
  fun _ _ h => (hp h).bind fun a _ _ _ hrest => hf a hrest

omit [Tokenwise R] in
/-- A value may be changed afterwards. -/
theorem Uniform.map {p : Parser α} {g : α → β} (hp : Uniform R p) :
    Uniform R (do let a ← p; return g a) :=
  hp.bind fun _ => uniform_pure _

/-! ## Single tokens -/

/-- Whether a token is taken does not depend on its position. -/
theorem uniform_take (f : Token → Option α) (e : Expected) : Uniform R (take f e) := by
  intro ts ts' h
  cases ts with
  | nil =>
    cases Tokenwise.nil h
    exact .error e h
  | cons t ts =>
    obtain ⟨t', rest, rfl, ht, hrest⟩ := Tokenwise.cons h
    cases hf : f t.token with
    | none =>
      rw [take_of_stops (by simp [hf]), take_of_stops (by simp [ht, hf])]
      exact .error e h
    | some a =>
      rw [take_of_some hf, take_of_some (ht ▸ hf)]
      exact .ok a hrest

/-- Whether a token that may be absent is taken does not depend on its position. -/
theorem uniform_take? (f : Token → Option α) : Uniform R (take? f) := by
  intro ts ts' h
  cases ts with
  | nil =>
    cases Tokenwise.nil h
    exact .ok none h
  | cons t ts =>
    obtain ⟨t', rest, rfl, ht, hrest⟩ := Tokenwise.cons h
    cases hf : f t.token with
    | none =>
      rw [take?_of_stops (by simp [hf]), take?_of_stops (by simp [ht, hf])]
      exact .ok none h
    | some a =>
      rw [take?_of_some hf, take?_of_some (ht ▸ hf)]
      exact .ok (some a) hrest

/-- Whether a token passes a test does not depend on its position. -/
theorem uniform_accept (test : Token → Bool) : Uniform R (accept test) := by
  intro ts ts' h
  rcases begins_or_stops test ts with ⟨t, ts, rfl, ht⟩ | hs
  · obtain ⟨t', rest, rfl, ht', hrest⟩ := Tokenwise.cons h
    rw [accept_of_true ht, accept_of_true (ht' ▸ ht)]
    exact .ok true hrest
  · rw [accept_of_stops hs, accept_of_stops ((Tokenwise.stops_iff h).2 hs)]
    exact .ok false h

/-- Whether two tokens pass a test each does not depend on their positions. -/
theorem uniform_acceptBoth (first second : Token → Bool) :
    Uniform R (acceptBoth first second) := by
  intro ts ts' h
  rcases Tokenwise.beginsBoth_or h first second with
    ⟨t, u, rest, t', u', rest', rfl, rfl, ht', hu', hrest, ht, hu⟩ | ⟨hn, hn'⟩
  · rw [acceptBoth_of_true ht hu, acceptBoth_of_true (ht' ▸ ht) (hu' ▸ hu)]
    exact .ok true hrest
  · rw [acceptBoth_of_not hn, acceptBoth_of_not hn']
    exact .ok false h

theorem uniform_symbol (s : Symbol) (e : Expected) : Uniform R (symbol s e) := uniform_take _ _

theorem uniform_name (e : Expected) : Uniform R (name e) := uniform_take _ _

/-- Related lists end at the same place. -/
theorem Uniform.beforeEnd {p : Parser α} (hp : Uniform R p) (e : Expected) :
    Uniform R (p.beforeEnd e) := by
  intro ts ts' h
  cases ts with
  | nil =>
    cases Tokenwise.nil h
    exact .error e h
  | cons t ts =>
    obtain ⟨t', rest, rfl, -, -⟩ := Tokenwise.cons h
    exact hp h

/-! ## Many tokens -/

/-- As many tokens of a kind are taken from related lists. -/
theorem uniform_takeAll (f : Token → Option α) : Uniform R (takeAll f) := by
  intro ts
  induction ts with
  | nil =>
    intro ts' h
    cases Tokenwise.nil h
    exact .ok [] h
  | cons t ts ih =>
    intro ts' h
    obtain ⟨t', rest, rfl, ht, hrest⟩ := Tokenwise.cons h
    cases hf : f t.token with
    | none =>
      rw [takeAll_of_stops (by simp [hf]), takeAll_of_stops (by simp [ht, hf])]
      exact .ok [] h
    | some a =>
      rw [takeAll_of_some hf, takeAll_of_some (ht ▸ hf)]
      exact (ih hrest).bind fun as _ _ _ hafter => uniform_pure _ hafter

/-- The same names are taken from behind the separators of related lists. -/
theorem uniform_namesAfter (separator : Symbol) (stop : Token → Bool) (e : Expected) :
    Uniform R (namesAfter separator stop e) := by
  intro ts ts' h
  rcases begins_or_stops (is separator) ts with ⟨t, ts, rfl, ht⟩ | hs
  · obtain ⟨t', ts', rfl, ht', h'⟩ := Tokenwise.cons h
    rcases begins_or_stops (fun u => stop u || u.name?.isSome) ts with ⟨u, ts, rfl, hu⟩ | hs
    · obtain ⟨u', rest, rfl, hu', hrest⟩ := Tokenwise.cons h'
      cases hstop : stop u.token with
      | true =>
        rw [namesAfter_of_begins hstop, namesAfter_of_begins (hu' ▸ hstop)]
        exact .ok [] h
      | false =>
        rw [hstop, Bool.false_or] at hu
        obtain ⟨n, hn⟩ := Option.isSome_iff_exists.1 hu
        rw [namesAfter_of_name ht hstop hn,
          namesAfter_of_name (ht' ▸ ht) (hu' ▸ hstop) (hu' ▸ hn)]
        exact (uniform_namesAfter separator stop e hrest).bind
          fun ns _ _ _ hafter => uniform_pure _ hafter
    · rw [namesAfter_of_no_name ht hs,
        namesAfter_of_no_name (ht' ▸ ht) ((Tokenwise.stops_iff h').2 hs)]
      exact .error e h'
  · rw [namesAfter_of_stops hs, namesAfter_of_stops ((Tokenwise.stops_iff h).2 hs)]
    exact .ok [] h
termination_by ts => ts.length

/-! ## Repetition -/

omit [Tokenwise R] in
/-- A repetition up to a test that related lists pass alike is uniform. -/
theorem Uniform.repeatUntil {stop : List Located → Bool} {item : Parser α} {hi : Advances item}
    (hstop : ∀ ts ts', R ts ts' → stop ts' = stop ts) (hitem : Uniform R item) :
    Uniform R (repeatUntil stop item hi) := by
  intro ts ts' h
  cases hs : stop ts with
  | true =>
    rw [repeatUntil_of_stop hs, repeatUntil_of_stop ((hstop _ _ h).trans hs)]
    exact .ok [] h
  | false =>
    rw [repeatUntil_of_go hs, repeatUntil_of_go ((hstop _ _ h).trans hs)]
    refine (hitem h).bind fun a rest rest' hok hrest => ?_
    have : rest.length < ts.length := hi hok
    exact (Uniform.repeatUntil hstop hitem hrest).bind fun _ _ _ _ hafter => uniform_pure _ hafter
termination_by ts => ts.length

/-- Related lists begin with the same symbol. -/
theorem Tokenwise.begins_eq (h : R ts ts') (s : Symbol) : begins s ts' = begins s ts := by
  cases ts with
  | nil => rw [Tokenwise.nil h]
  | cons t ts =>
    obtain ⟨t', rest, rfl, ht, -⟩ := Tokenwise.cons h
    rw [begins, begins, ht]

/-- Items up to a closing symbol are uniform if an item is. -/
theorem Uniform.manyUntil {close : Symbol} {item : Parser α} {hi : Advances item}
    (hitem : Uniform R item) : Uniform R (manyUntil close item hi) :=
  (hitem.repeatUntil fun _ _ h => Tokenwise.begins_eq h close).bind fun _ =>
    (uniform_accept _).bind fun _ => uniform_pure _

end SchemaDiagram.Parser
