import SchemaDiagram.Parser

/-!
# SchemaDiagram.Parser.Progress

How parsers move through a list of tokens.

1. `Advances` says of a parser that its success takes a token, `Shrinks` that it adds none; both
   pass through sequences of parsers.
2. `repeatUntil` repeats a parser that advances, so it ends; `manyUntil` does so up to a closing
   symbol.
-/

namespace SchemaDiagram.Parser

/-! ## Taking tokens -/

/-- A success leaves fewer tokens. -/
def Advances (p : Parser α) : Prop :=
  ∀ ⦃ts a rest⦄, p ts = .ok (a, rest) → rest.length < ts.length

/-- A success leaves no more tokens. -/
def Shrinks (p : Parser α) : Prop :=
  ∀ ⦃ts a rest⦄, p ts = .ok (a, rest) → rest.length ≤ ts.length

/-- A parser that takes a token leaves no more tokens. -/
theorem Advances.shrinks {p : Parser α} (h : Advances p) : Shrinks p :=
  fun _ _ _ hp => Nat.le_of_lt (h hp)

/-- A sequence succeeds when its parts do. -/
theorem bind_eq_ok {p : Parser α} {f : α → Parser β} {ts rest : List Located} {b : β} :
    (p >>= f) ts = .ok (b, rest) ↔ ∃ a mid, p ts = .ok (a, mid) ∧ f a mid = .ok (b, rest) := by
  show Parser.bind p f ts = _ ↔ _
  unfold Parser.bind
  split <;> rename_i hp
  · simp [hp]
  · simp only [hp, Except.ok.injEq, Prod.mk.injEq]
    exact ⟨fun h => ⟨_, _, ⟨rfl, rfl⟩, h⟩, fun ⟨_, _, ⟨ha, hr⟩, h⟩ => ha ▸ hr ▸ h⟩

/-- A parser that takes nothing leaves all tokens. -/
theorem pure_eq_ok {a b : α} {ts rest : List Located} :
    (pure a : Parser α) ts = .ok (b, rest) ↔ a = b ∧ ts = rest := by
  show Parser.pure a ts = _ ↔ _
  simp [Parser.pure]

/-- A sequence advances if its first part does. -/
theorem Advances.bind {p : Parser α} {f : α → Parser β} (hp : Advances p)
    (hf : ∀ a, Shrinks (f a)) : Advances (p >>= f) := by
  intro ts b rest h
  obtain ⟨a, mid, h₁, h₂⟩ := bind_eq_ok.1 h
  have := hp h₁
  have := hf a h₂
  omega

/-- A sequence adds no token if none of its parts does. -/
theorem Shrinks.bind {p : Parser α} {f : α → Parser β} (hp : Shrinks p)
    (hf : ∀ a, Shrinks (f a)) : Shrinks (p >>= f) := by
  intro ts b rest h
  obtain ⟨a, mid, h₁, h₂⟩ := bind_eq_ok.1 h
  have := hp h₁
  have := hf a h₂
  omega

/-- A sequence advances if its second part does. -/
theorem Shrinks.bind_advances {p : Parser α} {f : α → Parser β} (hp : Shrinks p)
    (hf : ∀ a, Advances (f a)) : Advances (p >>= f) := by
  intro ts b rest h
  obtain ⟨a, mid, h₁, h₂⟩ := bind_eq_ok.1 h
  have := hp h₁
  have := hf a h₂
  omega

theorem shrinks_pure (a : α) : Shrinks (pure a : Parser α) := by
  intro ts b rest h
  obtain ⟨-, rfl⟩ := pure_eq_ok.1 h
  exact Nat.le_refl _

theorem advances_fail (e : Expected) : Advances (fail e : Parser α) := by
  intro ts a rest h
  simp [fail] at h

theorem shrinks_line? : Shrinks line? := by
  intro ts a rest h
  simp only [line?, Except.ok.injEq, Prod.mk.injEq] at h
  simp [h.2]

/-- A token that may be absent is taken, or nothing is. -/
theorem shrinks_take? (f : Token → Option α) : Shrinks (take? f) := by
  intro ts a rest h
  unfold take? at h
  split at h
  · cases h; simp
  · split at h <;> cases h <;> simp

/-- A token that has to be there is taken. -/
theorem advances_take (f : Token → Option α) (e : Expected) : Advances (take f e) := by
  intro ts a rest h
  unfold take at h
  split at h
  · contradiction
  · split at h
    · cases h; simp
    · contradiction

/-- A run of tokens is taken, which may be empty. -/
theorem shrinks_takeAll (f : Token → Option α) : Shrinks (takeAll f) := by
  intro ts
  induction ts with
  | nil => intro a rest h; cases h; simp
  | cons t ts ih =>
    intro a rest h
    unfold takeAll at h
    split at h
    · split at h
      · contradiction
      · rename_i hr
        cases h
        have := ih hr
        simp only [List.length_cons]
        omega
    · cases h; simp

/-- A token is taken by its test, or nothing is. -/
theorem shrinks_accept (test : Token → Bool) : Shrinks (accept test) := by
  intro ts a rest h
  unfold accept at h
  split at h
  · cases h; simp
  · split at h <;> cases h <;> simp

/-- Two tokens are taken by their tests, or nothing is. -/
theorem shrinks_acceptBoth (first second : Token → Bool) : Shrinks (acceptBoth first second) := by
  intro ts a rest h
  unfold acceptBoth at h
  split at h
  · split at h <;> cases h
    · simp only [List.length_cons]; omega
    · simp
  · cases h; simp

/-- A parser behind a test of the next token advances if it advances where the test fails. -/
theorem advances_accept_then {test : Token → Bool} {p q : Parser α} (hp : Shrinks p)
    (hq : Advances q) : Advances (do if ← accept test then p else q) := by
  intro ts a rest h
  obtain ⟨b, mid, h₁, h₂⟩ := bind_eq_ok.1 h
  unfold accept at h₁
  split at h₁
  · cases h₁; exact hq h₂
  · split at h₁
    · cases h₁
      have := hp h₂
      simp only [List.length_cons]
      omega
    · cases h₁; exact hq h₂

/-- A parser behind a test of the next two tokens advances if it advances where the test fails. -/
theorem advances_acceptBoth_then {first second : Token → Bool} {p q : Parser α} (hp : Shrinks p)
    (hq : Advances q) : Advances (do if ← acceptBoth first second then p else q) := by
  intro ts a rest h
  obtain ⟨b, mid, h₁, h₂⟩ := bind_eq_ok.1 h
  unfold acceptBoth at h₁
  split at h₁
  · split at h₁
    · cases h₁
      have := hp h₂
      simp only [List.length_cons]
      omega
    · cases h₁; exact hq h₂
  · cases h₁; exact hq h₂

theorem advances_symbol (s : Symbol) (e : Expected) : Advances (symbol s e) := advances_take ..

theorem advances_name (e : Expected) : Advances (name e) := advances_take ..

/-- A parser that advances does so where the end of the input is refused. -/
theorem Advances.beforeEnd {p : Parser α} (hp : Advances p) (e : Expected) :
    Advances (p.beforeEnd e) := by
  intro ts a rest h
  unfold Parser.beforeEnd at h
  split at h
  · contradiction
  · exact hp h

/-- Names are taken with the separators in front of them. -/
theorem shrinks_namesAfter (separator : Symbol) (stop : Token → Bool) (e : Expected) :
    Shrinks (namesAfter separator stop e) := by
  intro ts
  fun_induction namesAfter separator stop e ts with
  | case1 => intro a rest h; cases h; simp
  | case2 => intro a rest h; contradiction
  | case3 => intro a rest h; cases h; simp
  | case4 => intro a rest h; contradiction
  | case5 => intro a rest h; contradiction
  | case6 t u ts _ n _ ns after hr ih =>
    intro a rest h
    cases h
    have := ih hr
    simp only [List.length_cons]
    omega
  | case7 => intro a rest h; cases h; simp

/-! ## Repetition -/

/-- Whether the next token is a symbol. -/
def begins (s : Symbol) : List Located → Bool
  | [] => false
  | t :: _ => is s t.token

/-- Items as long as the tokens that are left do not pass a test. -/
def repeatUntil (stop : List Located → Bool) (item : Parser α) (h : Advances item) :
    Parser (List α) := fun ts =>
  if stop ts then .ok ([], ts)
  else
    match hi : item ts with
    | .error m => .error m
    | .ok (a, rest) =>
      have : rest.length < ts.length := h hi
      match repeatUntil stop item h rest with
      | .error m => .error m
      | .ok (as, after) => .ok (a :: as, after)
termination_by ts => ts.length
decreasing_by assumption

/-- A repetition adds no token. -/
theorem shrinks_repeatUntil (stop : List Located → Bool) (item : Parser α) (h : Advances item) :
    Shrinks (repeatUntil stop item h) := by
  intro ts
  fun_induction repeatUntil stop item h ts with
  | case1 => intro a rest he; cases he; simp
  | case2 => intro a rest he; contradiction
  | case3 => intro a rest he; contradiction
  | case4 ts _ a rest _ shorter as after hr ih =>
    intro b final he
    cases he
    have := ih hr
    omega

/-- Items up to a closing symbol, which is taken. -/
def manyUntil (close : Symbol) (item : Parser α) (h : Advances item) : Parser (List α) := do
  let items ← repeatUntil (begins close) item h
  let _ ← accept (is close)
  return items

/-- A body leaves no more tokens than there were. -/
theorem shrinks_manyUntil (close : Symbol) (item : Parser α) (h : Advances item) :
    Shrinks (manyUntil close item h) :=
  (shrinks_repeatUntil ..).bind fun _ => (shrinks_accept _).bind fun _ => shrinks_pure _

end SchemaDiagram.Parser
