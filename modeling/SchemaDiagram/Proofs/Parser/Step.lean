import SchemaDiagram.Parser.Progress

/-!
# SchemaDiagram.Proofs.Parser.Step

What the basic parsers do on the next tokens.

1. `Stops test ts` says that `ts` does not begin with a token that passes the test.  It is what the
   parsers that take as much as they can leave, and what lets them leave it.
2. `p_of_…` are equations: what a parser gives on tokens that begin in a certain way.
3. `p_eq_ok` are equivalences: which tokens a success has taken.
-/

namespace SchemaDiagram.Parser

/-! ## The next token -/

/-- The next token, if there is one, fails a test. -/
def Stops (test : Token → Bool) (ts : List Located) : Prop :=
  ∀ t ∈ ts.head?, test t.token = false

@[simp] theorem stops_nil (test : Token → Bool) : Stops test [] := by simp [Stops]

@[simp] theorem stops_cons {test : Token → Bool} {t : Located} {ts : List Located} :
    Stops test (t :: ts) ↔ test t.token = false := by simp [Stops]

/-- Tokens begin with one that passes a test, or they stop it. -/
theorem begins_or_stops (test : Token → Bool) (ts : List Located) :
    (∃ t rest, ts = t :: rest ∧ test t.token = true) ∨ Stops test ts := by
  cases ts with
  | nil => exact .inr (stops_nil test)
  | cons t rest =>
    cases ht : test t.token with
    | true => exact .inl ⟨t, rest, rfl, ht⟩
    | false => exact .inr (stops_cons.2 ht)

/-- A token passes the test for a symbol exactly if it is the symbol. -/
theorem is_eq_true {s : Symbol} {t : Token} : is s t = true ↔ t = .symbol s := by simp [is]

theorem is_eq_false {s : Symbol} {t : Token} : is s t = false ↔ t ≠ .symbol s := by simp [is]

/-! ## Sequences -/

/-- A sequence goes on where its first part ends. -/
theorem bind_of_ok {p : Parser α} {f : α → Parser β} {ts mid : List Located} {a : α}
    (h : p ts = .ok (a, mid)) : (p >>= f) ts = f a mid := by
  show Parser.bind p f ts = _
  rw [Parser.bind, h]

/-- A sequence stops where its first part does. -/
theorem bind_of_error {p : Parser α} {f : α → Parser β} {ts : List Located} {m : Mismatch}
    (h : p ts = .error m) : (p >>= f) ts = .error m := by
  show Parser.bind p f ts = _
  rw [Parser.bind, h]

/-- A sequence goes on alike where its first part does. -/
theorem bind_congr_left {p q : Parser α} {f : α → Parser β} {ts ts' : List Located}
    (h : p ts = q ts') : (p >>= f) ts = (q >>= f) ts' := by
  show Parser.bind p f ts = Parser.bind q f ts'
  rw [Parser.bind, Parser.bind, h]

/-- A sequence stops when one of its parts does. -/
theorem bind_eq_error {p : Parser α} {f : α → Parser β} {ts : List Located} {m : Mismatch} :
    (p >>= f) ts = .error m ↔
      p ts = .error m ∨ ∃ a mid, p ts = .ok (a, mid) ∧ f a mid = .error m := by
  cases hp : p ts with
  | error m' => rw [bind_of_error hp]; simp
  | ok r =>
    rw [bind_of_ok hp]
    constructor
    · exact fun h => .inr ⟨_, _, rfl, h⟩
    · rintro (h | ⟨a, mid, h, hf⟩)
      · contradiction
      · cases h; exact hf

/-- A sequence that begins with a look at the line of the next token. -/
theorem line?_then {f : Option Nat → Parser β} {ts : List Located} :
    (line? >>= f) ts = f (ts.head?.map (·.position.line)) ts := rfl

/-! ## One token -/

/-- A token of the kind is taken. -/
theorem take_of_some {f : Token → Option α} {e : Expected} {t : Located} {ts : List Located}
    {a : α} (h : f t.token = some a) : take f e (t :: ts) = .ok (a, ts) := by
  simp [take, h]

/-- Where no token of the kind is next, nothing is taken and that token is at fault. -/
theorem take_of_stops {f : Token → Option α} {e : Expected} {ts : List Located}
    (h : Stops (fun t => (f t).isSome) ts) : take f e ts = .error ⟨e, ts⟩ := by
  cases ts with
  | nil => rfl
  | cons t ts => simp_all [take]

theorem name_of_some {e : Expected} {t : Located} {ts : List Located} {n : String}
    (h : t.token.name? = some n) : name e (t :: ts) = .ok (n, ts) :=
  take_of_some h

/-- A token that is no name is at fault where a name has to be. -/
theorem name_of_none {e : Expected} {t : Located} {ts : List Located}
    (h : t.token.name? = none) : name e (t :: ts) = .error ⟨e, t :: ts⟩ :=
  take_of_stops (stops_cons.2 (Option.isSome_eq_false_iff.2 (Option.isNone_iff_eq_none.2 h)))

/-- What is taken is the next token, for what is read of it. -/
theorem take_eq_ok {f : Token → Option α} {e : Expected} {ts rest : List Located} {a : α} :
    take f e ts = .ok (a, rest) ↔ ∃ t, ts = t :: rest ∧ f t.token = some a := by
  constructor
  · intro h
    unfold take at h
    split at h
    · contradiction
    · split at h
      · rename_i ha
        cases h
        exact ⟨_, rfl, ha⟩
      · contradiction
  · rintro ⟨t, rfl, h⟩
    exact take_of_some h

/-- A symbol that is taken is the next token. -/
theorem symbol_eq_ok {s : Symbol} {e : Expected} {ts rest : List Located} {u : Unit} :
    symbol s e ts = .ok (u, rest) ↔ ∃ t, ts = t :: rest ∧ t.token = .symbol s := by
  rw [symbol, take_eq_ok]
  simp [is_eq_true]

theorem symbol_of_eq {s : Symbol} {e : Expected} {t : Located} {ts : List Located}
    (h : t.token = .symbol s) : symbol s e (t :: ts) = .ok ((), ts) :=
  symbol_eq_ok.2 ⟨t, rfl, h⟩

/-- Where the symbol is not next, nothing is taken and the next token is at fault. -/
theorem symbol_of_stops {s : Symbol} {e : Expected} {ts : List Located} (h : Stops (is s) ts) :
    symbol s e ts = .error ⟨e, ts⟩ := by
  refine take_of_stops fun t ht => ?_
  simp [h t ht]

/-- A token that passes the test is taken. -/
theorem accept_of_true {test : Token → Bool} {t : Located} {ts : List Located}
    (h : test t.token = true) : accept test (t :: ts) = .ok (true, ts) := by
  simp [accept, h]

/-- A token that fails the test is left. -/
theorem accept_of_stops {test : Token → Bool} {ts : List Located} (h : Stops test ts) :
    accept test ts = .ok (false, ts) := by
  cases ts with
  | nil => rfl
  | cons t ts => simp_all [accept]

/-- `accept` never fails. -/
theorem exists_accept (test : Token → Bool) (ts : List Located) : ∃ r, accept test ts = .ok r := by
  rcases begins_or_stops test ts with ⟨t, rest, rfl, ht⟩ | hs
  · exact ⟨_, accept_of_true ht⟩
  · exact ⟨_, accept_of_stops hs⟩

/-- A token of the kind is taken, and is no longer there. -/
theorem take?_of_some {f : Token → Option α} {t : Located} {ts : List Located} {a : α}
    (h : f t.token = some a) : take? f (t :: ts) = .ok (some a, ts) := by
  simp [take?, h]

/-- Where no token of the kind is next, nothing is taken and nothing is wrong. -/
theorem take?_of_stops {f : Token → Option α} {ts : List Located}
    (h : Stops (fun t => (f t).isSome) ts) : take? f ts = .ok (none, ts) := by
  cases ts with
  | nil => rfl
  | cons t ts => simp_all [take?]

/-- `take?` never fails. -/
theorem exists_take? (f : Token → Option α) (ts : List Located) : ∃ r, take? f ts = .ok r := by
  rcases begins_or_stops (fun t => (f t).isSome) ts with ⟨t, rest, rfl, ht⟩ | hs
  · obtain ⟨a, ha⟩ := Option.isSome_iff_exists.1 ht
    exact ⟨_, take?_of_some ha⟩
  · exact ⟨_, take?_of_stops hs⟩

/-! ## Choices by the next tokens -/

/-- Whether the next two tokens pass a test each. -/
def BeginsBoth (first second : Token → Bool) (ts : List Located) : Prop :=
  ∃ t u rest, ts = t :: u :: rest ∧ first t.token = true ∧ second u.token = true

/-- Tokens that fail the first test pass not both. -/
theorem not_beginsBoth_of_stops {first second : Token → Bool} {ts : List Located}
    (h : Stops first ts) : ¬ BeginsBoth first second ts := by
  rintro ⟨t, u, rest, rfl, ht, _⟩
  rw [stops_cons, ht] at h
  contradiction

/-- Tokens whose second fails the second test pass not both. -/
theorem not_beginsBoth_cons {first second : Token → Bool} {t : Located} {ts : List Located}
    (h : Stops second ts) : ¬ BeginsBoth first second (t :: ts) := by
  rintro ⟨_, u, rest, ⟨⟩, _, hu⟩
  rw [stops_cons, hu] at h
  contradiction

/-- Two tokens that pass their tests are taken. -/
theorem acceptBoth_of_true {first second : Token → Bool} {t u : Located} {ts : List Located}
    (ht : first t.token = true) (hu : second u.token = true) :
    acceptBoth first second (t :: u :: ts) = .ok (true, ts) := by
  simp [acceptBoth, ht, hu]

/-- Two tokens that do not both pass their tests are left, both of them. -/
theorem acceptBoth_of_not {first second : Token → Bool} {ts : List Located}
    (h : ¬ BeginsBoth first second ts) : acceptBoth first second ts = .ok (false, ts) := by
  unfold acceptBoth
  split
  · rename_i t u rest
    rw [if_neg]
    intro hb
    rw [Bool.and_eq_true] at hb
    exact h ⟨t, u, rest, rfl, hb.1, hb.2⟩
  · rfl

/-- `acceptBoth` never fails. -/
theorem exists_acceptBoth (first second : Token → Bool) (ts : List Located) :
    ∃ r, acceptBoth first second ts = .ok r := by
  by_cases hb : BeginsBoth first second ts
  · obtain ⟨t, u, rest, rfl, ht, hu⟩ := hb
    exact ⟨_, acceptBoth_of_true ht hu⟩
  · exact ⟨_, acceptBoth_of_not hb⟩

section

variable {p q : Parser α}

/-- A choice by the next token, which passes the test and is taken. -/
theorem accept_then_of_true {test : Token → Bool} {t : Located} {ts : List Located}
    (h : test t.token = true) : (do if ← accept test then p else q) (t :: ts) = p ts := by
  rw [bind_of_ok (accept_of_true h), if_pos rfl]

/-- A choice by the next token, which fails the test. -/
theorem accept_then_of_stops {test : Token → Bool} {ts : List Located} (h : Stops test ts) :
    (do if ← accept test then p else q) ts = q ts := by
  rw [bind_of_ok (accept_of_stops h), if_neg Bool.false_ne_true]

/-- A choice by the next two tokens, which pass their tests and are taken. -/
theorem acceptBoth_then_of_true {first second : Token → Bool} {t u : Located}
    {ts : List Located} (ht : first t.token = true) (hu : second u.token = true) :
    (do if ← acceptBoth first second then p else q) (t :: u :: ts) = p ts := by
  rw [bind_of_ok (acceptBoth_of_true ht hu), if_pos rfl]

/-- A choice by the next two tokens, which do not pass both tests. -/
theorem acceptBoth_then_of_not {first second : Token → Bool} {ts : List Located}
    (h : ¬ BeginsBoth first second ts) :
    (do if ← acceptBoth first second then p else q) ts = q ts := by
  rw [bind_of_ok (acceptBoth_of_not h), if_neg Bool.false_ne_true]

end

/-! ## Many tokens -/

/-- Behind a token of the kind, more of them are taken. -/
theorem takeAll_of_some {f : Token → Option α} {t : Located} {ts : List Located} {a : α}
    (h : f t.token = some a) :
    takeAll f (t :: ts) = (do let as ← takeAll f; return a :: as) ts := by
  simp only [takeAll, h]
  cases hr : takeAll f ts with
  | error m => rw [bind_of_error hr]
  | ok r => rw [bind_of_ok hr]; rfl

/-- In front of a token of another kind, no more are taken. -/
theorem takeAll_of_stops {f : Token → Option α} {ts : List Located}
    (h : Stops (fun t => (f t).isSome) ts) : takeAll f ts = .ok ([], ts) := by
  cases ts with
  | nil => rfl
  | cons t ts => simp_all [takeAll]

/-- Tokens of the kind are taken up to the first that is not. -/
theorem takeAll_append {f : Token → Option α} {taken rest : List Located} {as : List α}
    (h : taken.map (fun t => f t.token) = as.map some)
    (hs : Stops (fun t => (f t).isSome) rest) : takeAll f (taken ++ rest) = .ok (as, rest) := by
  induction taken generalizing as with
  | nil =>
    cases as with
    | nil => exact takeAll_of_stops hs
    | cons a as => simp at h
  | cons t taken ih =>
    cases as with
    | nil => simp at h
    | cons a as =>
      obtain ⟨ht, hr⟩ := List.cons.inj h
      rw [List.cons_append, takeAll_of_some ht, bind_of_ok (ih hr)]
      rfl

/-- `takeAll` never fails: it takes the tokens of the kind at the front. -/
theorem exists_takeAll (f : Token → Option α) (ts : List Located) :
    ∃ as taken rest, ts = taken ++ rest ∧ taken.map (fun t => f t.token) = as.map some ∧
      Stops (fun t => (f t).isSome) rest ∧ takeAll f ts = .ok (as, rest) := by
  induction ts with
  | nil => exact ⟨[], [], [], rfl, rfl, stops_nil _, rfl⟩
  | cons t ts ih =>
    cases ha : f t.token with
    | none =>
      have hs : Stops (fun t => (f t).isSome) (t :: ts) := by simp [ha]
      exact ⟨[], [], t :: ts, rfl, rfl, hs, takeAll_of_stops hs⟩
    | some a =>
      obtain ⟨as, taken, rest, rfl, hmap, hs, hr⟩ := ih
      refine ⟨a :: as, t :: taken, rest, rfl, by simp [ha, hmap], hs, ?_⟩
      rw [takeAll_of_some ha, bind_of_ok hr]
      rfl

/-! ## Names behind separators -/

section

variable {separator : Symbol} {stop : Token → Bool} {e : Expected} {t u : Located}
variable {ts : List Located}

/-- Without a separator there are no more names. -/
theorem namesAfter_of_stops (hs : Stops (is separator) ts) :
    namesAfter separator stop e ts = .ok ([], ts) := by
  unfold namesAfter
  split
  · rfl
  · rw [stops_cons] at hs
    simp [hs]
  · rw [stops_cons] at hs
    simp [hs]

/-- A separator with a stop behind it is left: what it begins is not one more name. -/
theorem namesAfter_of_begins (hu : stop u.token = true) :
    namesAfter separator stop e (t :: u :: ts) = .ok ([], t :: u :: ts) := by
  simp [namesAfter, hu]

/-- Behind a separator, a name is taken and more of them may follow. -/
theorem namesAfter_of_name {n : String} (ht : is separator t.token = true)
    (hu : stop u.token = false) (hn : u.token.name? = some n) :
    namesAfter separator stop e (t :: u :: ts) =
      (do let ns ← namesAfter separator stop e; return n :: ns) ts := by
  simp only [namesAfter, ht, hu, hn, Bool.not_false, Bool.and_self, if_true]
  cases hr : namesAfter separator stop e ts with
  | error m => rw [bind_of_error hr]
  | ok r => rw [bind_of_ok hr]; rfl

/-- Behind a separator there has to be a name. -/
theorem namesAfter_of_no_name (ht : is separator t.token = true)
    (hs : Stops (fun u => stop u || u.name?.isSome) ts) :
    namesAfter separator stop e (t :: ts) = .error ⟨e, ts⟩ := by
  cases ts with
  | nil => simp [namesAfter, ht]
  | cons u ts =>
    rw [stops_cons, Bool.or_eq_false_iff] at hs
    simp [namesAfter, ht, hs.1, Option.isNone_iff_eq_none.1 (Option.isSome_eq_false_iff.1 hs.2)]

end

/-! ## Repetition -/

section

variable {stop : List Located → Bool} {item : Parser α} {h : Advances item}

/-- A repetition ends at once where its end is reached. -/
theorem repeatUntil_of_stop {ts : List Located} (hs : stop ts = true) :
    repeatUntil stop item h ts = .ok ([], ts) := by
  rw [repeatUntil, if_pos hs]

/-- A repetition whose first item is taken goes on behind it. -/
theorem repeatUntil_of_ok {ts mid : List Located} {a : α} (hs : stop ts = false)
    (hi : item ts = .ok (a, mid)) :
    repeatUntil stop item h ts = (do let as ← repeatUntil stop item h; return a :: as) mid := by
  rw [repeatUntil, if_neg (by simp [hs])]
  split
  · rename_i m hm
    rw [hi] at hm
    contradiction
  · rename_i b rest hb
    rw [hi] at hb
    cases hb
    cases hr : repeatUntil stop item h mid with
    | error m => rw [bind_of_error hr]
    | ok r => rw [bind_of_ok hr]; rfl

/-- Before its end, a repetition is an item and the repetition behind it. -/
theorem repeatUntil_of_go {ts : List Located} (hs : stop ts = false) :
    repeatUntil stop item h ts =
      (do let a ← item; let as ← repeatUntil stop item h; return a :: as) ts := by
  cases hi : item ts with
  | error m =>
    rw [bind_of_error hi, repeatUntil, if_neg (by simp [hs])]
    split
    · rename_i hm
      exact congrArg _ (Except.error.inj (hm.symm.trans hi))
    · rename_i hb
      exact absurd (hb.symm.trans hi) (by simp)
  | ok r => rw [bind_of_ok hi, repeatUntil_of_ok hs hi]

/-- A repetition fails where its item fails, unless its end is reached. -/
theorem repeatUntil_of_error {ts : List Located} {m : Mismatch} (hs : stop ts = false)
    (hi : item ts = .error m) : repeatUntil stop item h ts = .error m := by
  rw [repeatUntil_of_go hs, bind_of_error hi]

end

/-- Tokens begin with a symbol exactly if it is the first of them. -/
theorem begins_eq_true {s : Symbol} {ts : List Located} :
    begins s ts = true ↔ ∃ t rest, ts = t :: rest ∧ t.token = .symbol s := by
  cases ts with
  | nil => simp [begins]
  | cons t ts => simp [begins, is_eq_true]

/-- Tokens that do not begin with a symbol stop the test for it. -/
theorem begins_eq_false {s : Symbol} {ts : List Located} :
    begins s ts = false ↔ Stops (is s) ts := by
  cases ts with
  | nil => simp [begins]
  | cons t ts => simp [begins]

end SchemaDiagram.Parser
