import SchemaDiagram.Proofs.Parser.Step

/-!
# SchemaDiagram.Proofs.Parser.Local

What a parser does depends only on the tokens it takes and on the next one.

`Local p` says so: where `p` succeeds or fails, it does the same in front of any other tokens with
the same first token.  Two parsers of the grammar look at one token more in some places: at the one
behind a bracket that follows a type, and at the one behind a point that follows a path.
`LocalAt look` allows for this where the next token passes the test `look`, and `LocalAt.bind`
makes such a parser local again if the parser behind it takes the token in question.
-/

namespace SchemaDiagram.Parser

/-! ## Tokens that look alike -/

/-- No token passes. -/
def never : Token → Bool := fun _ => false

@[simp] theorem stops_never (ts : List Located) : Stops never ts := fun _ _ => rfl

/-- Tokens with the same first one and, if it passes the test, with the same second one. -/
def Alike (look : Token → Bool) (ts ts' : List Located) : Prop :=
  ts'.head? = ts.head? ∧ (Stops look ts ∨ ts'.take 2 = ts.take 2)

/-- Without a look at the second token, the same first token is enough. -/
theorem alike_never {ts ts' : List Located} (h : ts'.head? = ts.head?) : Alike never ts ts' :=
  ⟨h, .inl (stops_never ts)⟩

/-- Behind a token that is there, the same first token is enough. -/
theorem alike_cons {look : Token → Bool} {ts ts' : List Located} (h : ts'.head? = ts.head?)
    (t : Located) (taken : List Located) :
    Alike look (t :: taken ++ ts) (t :: taken ++ ts') := by
  refine ⟨rfl, .inr ?_⟩
  cases taken with
  | nil => cases ts <;> cases ts' <;> simp_all
  | cons u taken => rfl

/-- Tokens that look alike do so behind the same tokens. -/
theorem Alike.append {look : Token → Bool} {ts ts' : List Located} (h : Alike look ts ts')
    (taken : List Located) : Alike look (taken ++ ts) (taken ++ ts') := by
  cases taken with
  | nil => exact h
  | cons t taken => exact alike_cons h.1 t taken

/-- Tokens that look alike begin with the same token. -/
theorem Alike.begins_iff {ts ts' : List Located} {look : Token → Bool} (h : Alike look ts ts')
    {test : Token → Bool} : Stops test ts' ↔ Stops test ts := by
  rw [Stops, Stops, h.1]

/-- To look alike goes both ways. -/
theorem Alike.symm {look : Token → Bool} {ts ts' : List Located} (h : Alike look ts ts') :
    Alike look ts' ts :=
  ⟨h.1.symm, h.2.imp h.begins_iff.2 Eq.symm⟩

/-- Where the first token passes the test, the second one is the same. -/
theorem Alike.exists_eq {look : Token → Bool} {t u : Located} {ts ts' : List Located}
    (h : Alike look (t :: u :: ts) ts') (ht : look t.token = true) :
    ∃ rest, ts' = t :: u :: rest := by
  rcases h.2 with hs | htake
  · rw [stops_cons, ht] at hs
    contradiction
  · cases ts' with
    | nil => simp at htake
    | cons t' ts' =>
      cases ts' with
      | nil => simp at htake
      | cons u' rest =>
        simp only [List.take_succ_cons, List.take_zero, List.cons.injEq, and_true] at htake
        exact ⟨rest, by rw [htake.1, htake.2]⟩

/-- Tokens that look alike begin with the same two tokens, if the first passes the test. -/
theorem Alike.beginsBoth {first second : Token → Bool} {ts ts' : List Located}
    (h : Alike first ts ts') (hb : BeginsBoth first second ts') : BeginsBoth first second ts := by
  obtain ⟨t, u, rest, rfl, ht, hu⟩ := hb
  obtain ⟨rest', rfl⟩ := h.symm.exists_eq ht
  exact ⟨t, u, rest', rfl, ht, hu⟩

/-! ## Locality -/

/-- On these tokens the parser does what it would do with other tokens behind the ones it takes, as
long as they look alike. -/
structure LocalAt (look : Token → Bool) (p : Parser α) (ts : List Located) : Prop where
  ok : ∀ {a rest}, p ts = .ok (a, rest) →
    ∃ taken, ts = taken ++ rest ∧ ∀ rest', Alike look rest rest' → p (taken ++ rest') = .ok (a, rest')
  error : ∀ {e rest}, p ts = .error ⟨e, rest⟩ →
    ∃ taken, ts = taken ++ rest ∧
      ∀ rest', rest'.head? = rest.head? → p (taken ++ rest') = .error ⟨e, rest'⟩

/-- What the parser does depends on the tokens it takes and on the next one. -/
def Local (p : Parser α) : Prop := ∀ ts, LocalAt never p ts

/-- The parser takes a token, whether it succeeds or fails. -/
structure Moves (p : Parser α) (ts : List Located) : Prop where
  ok : ∀ {a rest}, p ts = .ok (a, rest) → rest.length < ts.length
  error : ∀ {e rest}, p ts = .error ⟨e, rest⟩ → rest.length < ts.length

section

variable {look look' : Token → Bool} {p q : Parser α} {f : α → Parser β} {ts : List Located}

/-- A parser that takes a token and goes on locally is local. -/
theorem LocalAt.cons {t : Located} (h : ∀ ts', p (t :: ts') = q ts') (hq : LocalAt look q ts) :
    LocalAt look p (t :: ts) where
  ok hp := by
    obtain ⟨taken, rfl, htaken⟩ := hq.ok ((h ts).symm.trans hp)
    exact ⟨t :: taken, rfl, fun rest' ha => (h _).trans (htaken rest' ha)⟩
  error hp := by
    obtain ⟨taken, rfl, htaken⟩ := hq.error ((h ts).symm.trans hp)
    exact ⟨t :: taken, rfl, fun rest' ha => (h _).trans (htaken rest' ha)⟩

/-- A parser that looks at the next token and goes on locally is local. -/
theorem LocalAt.of_head (h : ∀ ts', ts'.head? = ts.head? → p ts' = q ts') (hq : LocalAt look q ts) :
    LocalAt look p ts where
  ok hp := by
    obtain ⟨taken, rfl, htaken⟩ := hq.ok ((h ts rfl).symm.trans hp)
    exact ⟨taken, rfl, fun rest' ha => (h _ (ha.append taken).1).trans (htaken rest' ha)⟩
  error hp := by
    obtain ⟨taken, rfl, htaken⟩ := hq.error ((h ts rfl).symm.trans hp)
    exact ⟨taken, rfl, fun rest' ha =>
      (h _ ((alike_never ha).append taken).1).trans (htaken rest' ha)⟩

/-- A sequence is local if its second part takes the tokens that its first part looks at. -/
theorem LocalAt.bind (hp : LocalAt look p ts)
    (hf : ∀ a mid, p ts = .ok (a, mid) → LocalAt look' (f a) mid)
    (hmoves : ∀ a mid, p ts = .ok (a, mid) → Stops look mid ∨ Moves (f a) mid) :
    LocalAt look' (p >>= f) ts where
  ok {b rest} h := by
    obtain ⟨a, mid, h₁, h₂⟩ := bind_eq_ok.1 h
    obtain ⟨xs, rfl, hxs⟩ := hp.ok h₁
    obtain ⟨ys, rfl, hys⟩ := (hf a mid h₁).ok h₂
    refine ⟨xs ++ ys, by simp, fun rest' ha => ?_⟩
    have hmid : Alike look (ys ++ rest) (ys ++ rest') := by
      rcases hmoves a _ h₁ with hs | hm
      · exact ⟨(ha.append ys).1, .inl hs⟩
      · cases ys with
        | nil => exact absurd (hm.ok h₂) (by simp)
        | cons t ys => exact alike_cons ha.1 t ys
    rw [List.append_assoc, bind_of_ok (hxs _ hmid)]
    exact hys rest' ha
  error {e rest} h := by
    rcases bind_eq_error.1 h with h₁ | ⟨a, mid, h₁, h₂⟩
    · obtain ⟨xs, rfl, hxs⟩ := hp.error h₁
      exact ⟨xs, rfl, fun rest' ha => bind_of_error (hxs rest' ha)⟩
    · obtain ⟨xs, rfl, hxs⟩ := hp.ok h₁
      obtain ⟨ys, rfl, hys⟩ := (hf a mid h₁).error h₂
      refine ⟨xs ++ ys, by simp, fun rest' ha => ?_⟩
      have hmid : Alike look (ys ++ rest) (ys ++ rest') := by
        rcases hmoves a _ h₁ with hs | hm
        · exact ⟨((alike_never ha).append ys).1, .inl hs⟩
        · cases ys with
          | nil => exact absurd (hm.error h₂) (by simp)
          | cons t ys => exact alike_cons ha t ys
      rw [List.append_assoc, bind_of_ok (hxs _ hmid)]
      exact hys rest' ha

/-- A parser that goes on locally behind the next token has taken it. -/
theorem LocalAt.moves {mid : List Located} (hq : LocalAt look q mid) (h : p ts = q mid)
    (hlt : mid.length < ts.length) : Moves p ts where
  ok hp := by
    obtain ⟨taken, rfl, _⟩ := hq.ok (h.symm.trans hp)
    rw [List.length_append] at hlt
    omega
  error hp := by
    obtain ⟨taken, rfl, _⟩ := hq.error (h.symm.trans hp)
    rw [List.length_append] at hlt
    omega

/-- A value may be changed afterwards. -/
theorem Moves.map {g : α → β} (h : Moves p ts) : Moves (do let a ← p; return g a) ts where
  ok hp := by
    obtain ⟨a, mid, h₁, h₂⟩ := bind_eq_ok.1 hp
    cases h₂
    exact h.ok h₁
  error hp := by
    rcases bind_eq_error.1 hp with h₁ | ⟨a, mid, h₁, h₂⟩
    · exact h.error h₁
    · contradiction

/-- A sequence looks as far ahead as its second part does. -/
theorem Local.bindAt (hp : Local p) (hf : ∀ a mid, p ts = .ok (a, mid) → LocalAt look (f a) mid) :
    LocalAt look (p >>= f) ts :=
  (hp ts).bind hf fun _ _ _ => .inl (stops_never _)

/-- A sequence of local parsers is local. -/
theorem Local.bind (hp : Local p) (hf : ∀ a, Local (f a)) : Local (p >>= f) :=
  fun _ => hp.bindAt fun a mid _ => hf a mid

/-- A value may be changed afterwards. -/
theorem LocalAt.map {g : α → β} (hp : LocalAt look p ts) :
    LocalAt look (do let a ← p; return g a) ts where
  ok h := by
    obtain ⟨a, mid, h₁, h₂⟩ := bind_eq_ok.1 h
    cases h₂
    obtain ⟨xs, rfl, hxs⟩ := hp.ok h₁
    exact ⟨xs, rfl, fun rest' ha => bind_of_ok (hxs rest' ha)⟩
  error h := by
    rcases bind_eq_error.1 h with h₁ | ⟨a, mid, h₁, h₂⟩
    · obtain ⟨xs, rfl, hxs⟩ := hp.error h₁
      exact ⟨xs, rfl, fun rest' ha => bind_of_error (hxs rest' ha)⟩
    · contradiction

theorem Local.map {g : α → β} (hp : Local p) : Local (do let a ← p; return g a) :=
  fun ts => (hp ts).map

end

/-! ## The basic parsers -/

/-- A parser that takes nothing and succeeds does so in front of any tokens. -/
theorem localAt_pure (look : Token → Bool) (a : α) (ts : List Located) :
    LocalAt look (pure a) ts where
  ok h := by cases h; exact ⟨[], rfl, fun _ _ => rfl⟩
  error h := by contradiction

theorem local_pure (a : α) : Local (pure a : Parser α) := localAt_pure never a

/-- A parser that takes nothing and fails does so in front of any tokens. -/
theorem localAt_fail (look : Token → Bool) (e : Expected) (ts : List Located) :
    LocalAt look (fail e : Parser α) ts where
  ok h := by contradiction
  error h := by cases h; exact ⟨[], rfl, fun _ _ => rfl⟩

theorem local_fail (e : Expected) : Local (fail e : Parser α) := localAt_fail never e

/-- The line of the next token is a fact about that token. -/
theorem local_line? : Local line? := fun ts =>
  .of_head (q := pure (ts.head?.map (·.position.line)))
    (fun ts' h => by rw [line?, h]; rfl) (local_pure _ _)

/-- Whether a token is taken is seen from that token. -/
theorem local_take (f : Token → Option α) (e : Expected) : Local (take f e) := by
  intro ts
  rcases begins_or_stops (fun t => (f t).isSome) ts with ⟨t, rest, rfl, ht⟩ | hs
  · obtain ⟨a, ha⟩ := Option.isSome_iff_exists.1 ht
    exact .cons (q := pure a) (fun _ => take_of_some ha) (local_pure a _)
  · exact .of_head (q := fail e) (fun ts' h => take_of_stops ((alike_never h).begins_iff.2 hs))
      (local_fail e _)

/-- Whether a token that may be absent is taken is seen from the next token. -/
theorem local_take? (f : Token → Option α) : Local (take? f) := by
  intro ts
  rcases begins_or_stops (fun t => (f t).isSome) ts with ⟨t, rest, rfl, ht⟩ | hs
  · obtain ⟨a, ha⟩ := Option.isSome_iff_exists.1 ht
    exact .cons (q := pure (some a)) (fun _ => take?_of_some ha) (local_pure _ _)
  · exact .of_head (q := pure none) (fun ts' h => take?_of_stops ((alike_never h).begins_iff.2 hs))
      (local_pure _ _)

/-- Whether a token passes a test is seen from that token. -/
theorem local_accept (test : Token → Bool) : Local (accept test) := by
  intro ts
  rcases begins_or_stops test ts with ⟨t, rest, rfl, ht⟩ | hs
  · exact .cons (q := pure true) (fun _ => accept_of_true ht) (local_pure _ _)
  · exact .of_head (q := pure false) (fun ts' h => accept_of_stops ((alike_never h).begins_iff.2 hs))
      (local_pure _ _)

/-- Tokens of a kind are taken up to the first that is not, which is the next one then. -/
theorem local_takeAll (f : Token → Option α) : Local (takeAll f) := by
  intro ts
  induction ts with
  | nil =>
    exact .of_head (q := pure []) (fun ts' h => takeAll_of_stops ((alike_never h).begins_iff.2
      (stops_nil _))) (local_pure _ _)
  | cons t ts ih =>
    cases ha : f t.token with
    | none =>
      have hs : Stops (fun t => (f t).isSome) (t :: ts) := by simp [ha]
      exact .of_head (q := pure []) (fun ts' h => takeAll_of_stops ((alike_never h).begins_iff.2 hs))
        (local_pure _ _)
    | some a => exact .cons (fun _ => takeAll_of_some ha) ih.map

theorem local_symbol (s : Symbol) (e : Expected) : Local (symbol s e) := local_take _ _

theorem local_name (e : Expected) : Local (name e) := local_take _ _

/-- A look at the line of the next token leaves it to be taken. -/
theorem moves_line?_bind {f : Option Nat → Parser β} {t : Located} {ts : List Located}
    (h : Moves (f (some t.position.line)) (t :: ts)) : Moves (line? >>= f) (t :: ts) :=
  ⟨h.ok, h.error⟩

/-- A parser that takes a name and is local behind it has moved. -/
theorem moves_name_bind {e : Expected} {f : String → Parser β} {t : Located} {ts : List Located}
    {n : String} (ht : t.token.name? = some n) (h : Local (f n)) :
    Moves (name e >>= f) (t :: ts) :=
  (h ts).moves (bind_of_ok (name_of_some ht)) (Nat.lt_succ_self _)

/-- Whether the input is at its end is seen from the next token, if there is one. -/
theorem Local.beforeEnd {p : Parser α} (hp : Local p) (e : Expected) : Local (p.beforeEnd e) := by
  intro ts
  cases ts with
  | nil =>
    refine .of_head (q := fail e) (fun ts' h => ?_) (local_fail e _)
    rw [List.head?_eq_none_iff.1 h]
    rfl
  | cons t ts =>
    refine .of_head (q := p) (fun ts' h => ?_) (hp _)
    obtain ⟨rest, rfl⟩ := List.head?_eq_some_iff.1 h
    rfl

/-! ## Looks at two tokens -/

/-- Two tokens are taken or nothing is, for which it takes a look at the second. -/
theorem localAt_acceptBoth (first second : Token → Bool) (ts : List Located) :
    LocalAt first (acceptBoth first second) ts where
  ok {b rest} h := by
    by_cases hb : BeginsBoth first second ts
    · obtain ⟨t, u, after, rfl, ht, hu⟩ := hb
      rw [acceptBoth_of_true ht hu] at h
      cases h
      exact ⟨[t, u], rfl, fun rest' _ => acceptBoth_of_true ht hu⟩
    · rw [acceptBoth_of_not hb] at h
      cases h
      exact ⟨[], rfl, fun rest' ha => acceptBoth_of_not (mt ha.beginsBoth hb)⟩
  error h := by
    by_cases hb : BeginsBoth first second ts
    · obtain ⟨t, u, after, rfl, ht, hu⟩ := hb
      rw [acceptBoth_of_true ht hu] at h
      contradiction
    · rw [acceptBoth_of_not hb] at h
      contradiction

/-- A choice by the next two tokens is local if the tokens are taken in either case. -/
theorem Local.acceptBoth_then {first second : Token → Bool} {p q : Parser α} (hp : Local p)
    (hq : Local q) (hmoves : ∀ ts, ¬ BeginsBoth first second ts → Stops first ts ∨ Moves q ts) :
    Local (do if ← acceptBoth first second then p else q) := by
  intro ts
  by_cases hb : BeginsBoth first second ts
  · obtain ⟨t, u, rest, rfl, ht, hu⟩ := hb
    refine .cons (fun _ => rfl) (.cons (q := p) (fun _ => ?_) (hp rest))
    exact acceptBoth_then_of_true ht hu
  · refine ((localAt_acceptBoth first second ts).bind (fun b mid h => ?_) fun b mid h => ?_)
    · rw [acceptBoth_of_not hb] at h
      cases h
      exact hq _
    · rw [acceptBoth_of_not hb] at h
      cases h
      exact hmoves _ hb

/-- A choice by two tokens moves if what it falls back on does: otherwise it has taken the two. -/
theorem moves_acceptBoth_then {first second : Token → Bool} {p q : Parser α} {ts : List Located}
    (hp : Local p) (hq : Moves q ts) : Moves (do if ← acceptBoth first second then p else q) ts := by
  by_cases hb : BeginsBoth first second ts
  · obtain ⟨t, u, rest, rfl, ht, hu⟩ := hb
    refine (hp rest).moves (acceptBoth_then_of_true ht hu) ?_
    simp only [List.length_cons]
    omega
  · have h := acceptBoth_then_of_not (p := p) (q := q) hb
    exact ⟨fun hok => hq.ok (h.symm.trans hok), fun herr => hq.error (h.symm.trans herr)⟩

/-- Names behind separators are taken up to one that is followed by a stop, for which it takes a
look at the token behind the separator. -/
theorem localAt_namesAfter (separator : Symbol) (stop : Token → Bool) (e : Expected)
    (ts : List Located) : LocalAt (is separator) (namesAfter separator stop e) ts := by
  rcases begins_or_stops (is separator) ts with ⟨t, ts, rfl, ht⟩ | hs
  · rcases begins_or_stops (fun u => stop u || u.name?.isSome) ts with ⟨u, ts, rfl, hu⟩ | hs
    · cases hstop : stop u.token with
      | true =>
        refine ⟨fun h => ?_, fun h => ?_⟩
        · rw [namesAfter_of_begins hstop] at h
          cases h
          refine ⟨[], rfl, fun rest' ha => ?_⟩
          obtain ⟨after, rfl⟩ := ha.exists_eq ht
          exact namesAfter_of_begins hstop
        · rw [namesAfter_of_begins hstop] at h
          contradiction
      | false =>
        rw [hstop, Bool.false_or] at hu
        obtain ⟨n, hn⟩ := Option.isSome_iff_exists.1 hu
        refine .cons (fun _ => rfl) (.cons (fun _ => namesAfter_of_name ht hstop hn) ?_)
        exact (localAt_namesAfter separator stop e ts).map
    · refine .cons (fun _ => rfl) (.of_head (q := fail e) (fun ts' h => ?_) (localAt_fail _ e ts))
      exact namesAfter_of_no_name ht ((alike_never h).begins_iff.2 hs)
  · exact .of_head (q := pure []) (fun ts' h => namesAfter_of_stops ((alike_never h).begins_iff.2 hs))
      (localAt_pure _ _ _)
termination_by ts.length

/-- Behind the names there is no separator but one that is followed by a stop. -/
theorem stops_of_namesAfter {separator : Symbol} {stop : Token → Bool} {e : Expected}
    {ts rest : List Located} {ns : List String}
    (h : namesAfter separator stop e ts = .ok (ns, rest)) :
    Stops (is separator) rest ∨ BeginsBoth (is separator) stop rest := by
  fun_induction namesAfter separator stop e ts generalizing ns with
  | case1 => cases h; exact .inl (stops_nil _)
  | case2 => contradiction
  | case3 t ht => cases h; exact .inl (stops_cons.2 (Bool.eq_false_iff.2 ht))
  | case4 => contradiction
  | case5 => contradiction
  | case6 t u ts _ n _ ns' after hr ih => cases h; exact ih hr
  | case7 t u ts hgo =>
    cases h
    cases ht : is separator t.token with
    | false => exact .inl (stops_cons.2 ht)
    | true => exact .inr ⟨t, u, ts, rfl, ht, by simpa [ht] using hgo⟩

/-! ## Repetition -/

/-- A repetition of a local parser up to a test of the next token is local. -/
theorem Local.repeatUntil {stop : List Located → Bool} {item : Parser α} {hi : Advances item}
    (hstop : ∀ ts ts', ts'.head? = ts.head? → stop ts' = stop ts) (hitem : Local item) :
    Local (repeatUntil stop item hi) := by
  intro ts
  cases hs : stop ts with
  | true =>
    refine .of_head (q := pure []) (fun ts' h => ?_) (local_pure _ _)
    exact repeatUntil_of_stop ((hstop ts ts' h).trans hs)
  | false =>
    refine .of_head (fun ts' h => repeatUntil_of_go ((hstop ts ts' h).trans hs)) ?_
    refine hitem.bindAt fun a mid h => ?_
    have : mid.length < ts.length := hi h
    exact (Local.repeatUntil hstop hitem mid).map
termination_by ts => ts.length

/-- Whether tokens begin with a symbol depends on the first of them only. -/
theorem begins_congr (s : Symbol) (ts ts' : List Located) (h : ts'.head? = ts.head?) :
    begins s ts' = begins s ts := by
  cases ts <;> cases ts' <;> simp_all [begins]

/-- Items up to a closing symbol are local if an item is. -/
theorem Local.manyUntil {close : Symbol} {item : Parser α} {hi : Advances item}
    (hitem : Local item) : Local (manyUntil close item hi) :=
  (hitem.repeatUntil (begins_congr close)).bind fun _ =>
    (local_accept _).bind fun _ => local_pure _

end SchemaDiagram.Parser
