import SchemaDiagram.Proofs.Parser.Cursor
import SchemaDiagram.Proofs.Parser.Step

/-!
# SchemaDiagram.Proofs.Parser.Follows

Walks that do what parsers do.

1. A walk `Follows` a parser if, from every cursor that is sound, it ends as the parser does on the
   tokens there: with the same value and the same tokens left, or with the same error.
2. Sequences and choices follow sequences and choices.
3. A loop follows what unfolds like it (`IsLoop`) and takes a token in each round: the places where
   the rounds begin are different, so there are no more of them than places.
-/

namespace SchemaDiagram

/-- Sequences of parsers may be grouped at will. -/
instance : LawfulMonad Parser :=
  LawfulMonad.mk' Parser
    (fun p => by
      funext ts
      show (p >>= pure) ts = p ts
      cases hp : p ts with
      | error m => rw [Parser.bind_of_error hp]
      | ok r => rw [Parser.bind_of_ok hp]; rfl)
    (fun _ _ => rfl)
    (fun p f g => by
      funext ts
      cases hp : p ts with
      | error m =>
        rw [Parser.bind_of_error (Parser.bind_of_error hp), Parser.bind_of_error hp]
      | ok r =>
        rw [Parser.bind_of_ok hp]
        exact Parser.bind_congr_left (Parser.bind_of_ok hp))

/-! ## Walks that do what parsers do -/

namespace Walk

open SchemaDiagram.Parser (Advances)

variable {c c' : Cursor} {w : Walk α} {p q : Parser α}

/-- From a cursor, a walk ends as a parser does on the tokens there. -/
structure FollowsAt (c : Cursor) (w : Walk α) (p : Parser α) : Prop where
  ok : ∀ {a ts}, p c.rest = .ok (a, ts) → ∃ c', w c = (.ok a, c') ∧ c.Reaches c' ts
  error : ∀ {m}, p c.rest = .error m →
    ∃ c', w c = (.error (.error (.ofMismatch c.finish m)), c') ∧ c.Halts c' m

/-- A walk ends as a parser does, wherever it begins. -/
def Follows (w : Walk α) (p : Parser α) : Prop := ∀ ⦃c⦄, c.IsSound → FollowsAt c w p

/-- A walk follows a parser that succeeds if it reaches the same tokens with the same value. -/
theorem followsAt_of_ok {a : α} {ts : List Located} (hp : p c.rest = .ok (a, ts))
    (hw : w c = (.ok a, c')) (hc : c.Reaches c' ts) : FollowsAt c w p where
  ok h := by
    rw [hp] at h
    cases h
    exact ⟨c', hw, hc⟩
  error h := by
    rw [hp] at h
    contradiction

/-- A walk follows a parser that fails if it halts with the same error. -/
theorem followsAt_of_error {m : Mismatch} (hp : p c.rest = .error m)
    (hw : w c = (.error (.error (.ofMismatch c.finish m)), c')) (hc : c.Halts c' m) :
    FollowsAt c w p where
  ok h := by
    rw [hp] at h
    contradiction
  error h := by
    rw [hp] at h
    cases h
    exact ⟨c', hw, hc⟩

/-- A walk that goes on at another cursor follows a parser that goes on with the tokens there. -/
theorem FollowsAt.of_reaches {w' : Walk α} {ts : List Located} (h : FollowsAt c' w' q)
    (hc : c.Reaches c' ts) (hw : w c = w' c') (hp : p c.rest = q c'.rest) : FollowsAt c w p where
  ok hr := by
    obtain ⟨c'', hw', hc'⟩ := h.ok (hp.symm.trans hr)
    exact ⟨c'', hw.trans hw', hc.trans hc'⟩
  error hr := by
    obtain ⟨c'', hw', hc'⟩ := h.error (hp.symm.trans hr)
    rw [congrArg Tape.finish hc.tape] at hw'
    exact ⟨c'', hw.trans hw', hc.halts hc'⟩

/-! ### Sequences -/

/-- A sequence of walks goes on where the first has ended. -/
theorem bind_of_ok {f : α → Walk β} {a : α} (h : w c = (.ok a, c')) : (w >>= f) c = f a c' := by
  show Walk.bind w f c = _
  rw [Walk.bind, h]

/-- A sequence of walks halts where the first halts. -/
theorem bind_of_error {f : α → Walk β} {e : Halt} (h : w c = (.error e, c')) :
    (w >>= f) c = (.error e, c') := by
  show Walk.bind w f c = _
  rw [Walk.bind, h]

/-- A sequence of walks follows a sequence of parsers. -/
theorem FollowsAt.bind {g : α → Walk β} {f : α → Parser β} (h : FollowsAt c w p)
    (hg : ∀ a c', p c.rest = .ok (a, c'.rest) → c'.IsSound → FollowsAt c' (g a) (f a)) :
    FollowsAt c (w >>= g) (p >>= f) := by
  cases hp : p c.rest with
  | error m =>
    obtain ⟨c', hw, hc⟩ := h.error hp
    exact followsAt_of_error (Parser.bind_of_error hp) (bind_of_error hw) hc
  | ok r =>
    obtain ⟨a, ts⟩ := r
    obtain ⟨c', hw, hc⟩ := h.ok hp
    obtain rfl := hc.rest
    exact (hg a c' hp hc.sound).of_reaches hc (bind_of_ok hw) (Parser.bind_of_ok hp)

/-- `FollowsAt.bind` from wherever the walk begins. -/
theorem Follows.bind {g : α → Walk β} {f : α → Parser β} (h : Follows w p)
    (hg : ∀ a, Follows (g a) (f a)) : Follows (w >>= g) (p >>= f) :=
  fun _ hc => (h hc).bind fun a _ _ hc' => hg a hc'

theorem Follows.of_eq (h : Follows w p) (hpq : p = q) : Follows w q := hpq ▸ h

theorem follows_pure (a : α) : Follows (pure a) (pure a : Parser α) :=
  fun _ hc => followsAt_of_ok rfl rfl hc.reaches_self

/-- A choice by a value follows the choice by the same value. -/
theorem Follows.ite {P : Prop} [Decidable P] {w' : Walk α} (h : Follows w p) (h' : Follows w' q) :
    Follows (if P then w else w') (if P then p else q) := by
  split
  · exact h
  · exact h'

/-! ### One token -/

/-- The token at the front of a list. -/
def first? (ts : List Located) : Option Token := ts.head?.map (·.token)

@[simp] theorem first?_nil : first? [] = none := rfl

@[simp] theorem first?_cons {t : Located} {ts : List Located} : first? (t :: ts) = some t.token :=
  rfl

/-- A test stops at tokens if the first does not pass it, or there is none. -/
theorem stops_iff_first? {test : Token → Bool} {ts : List Located} :
    Parser.Stops test ts ↔ (first? ts).any test = false := by
  cases ts <;> simp

/-- Whether tokens begin with a symbol is seen from the first of them. -/
theorem begins_eq_first? (s : Symbol) (ts : List Located) :
    Parser.begins s ts = (first? ts).any (Parser.is s) := by
  cases ts <;> rfl

/-- A look at the next token is a look at the tokens that are left. -/
theorem peek_then {f : Option Token → Walk α} : (peek >>= f) c = f (first? c.rest) c := by
  rw [first?, Cursor.head?_rest]
  rfl

/-- A look at the token behind the next one. -/
theorem peekSecond_then {f : Option Token → Walk α} :
    (peekSecond >>= f) c = f (first? c.rest.tail) c := by
  rw [first?, Cursor.rest, List.tail_drop, List.head?_drop]
  rfl

/-- Moving on gives the token that is passed. -/
theorem advance_then {f : Option Located → Walk α} :
    (advance >>= f) c = f c.rest.head? c.next := by
  rw [Cursor.head?_rest]
  rfl

/-- The position at a cursor is that of the next token, or of the end mark. -/
theorem position_then {f : Position → Walk α} :
    (position >>= f) c = f (c.rest.head?.elim c.finish (·.position)) c := by
  rw [Cursor.head?_rest]
  rfl

theorem pure_apply (a : α) : (pure a : Walk α) c = (.ok a, c) := rfl

/-- A walk that fails halts at the first of the tokens that are left. -/
theorem fail_apply {e : Expected} :
    (fail e : Walk α) c = (.error (.error (.ofMismatch c.finish ⟨e, c.rest⟩)), c) := by
  rw [fail, ← c.head?_rest]
  cases c.rest <;> rfl

/-- A walk that fails halts as the parser fails, with nothing passed. -/
theorem follows_fail {e : Expected} (he : e ≠ .closeBlock) :
    Follows (fail e : Walk α) (Parser.fail e) :=
  fun _ hc => followsAt_of_error rfl fail_apply (hc.halts_self he)

/-- A token is passed exactly if the parser takes it. -/
theorem follows_take? (f : Token → Option α) : Follows (take? f) (Parser.take? f) := by
  intro c hc
  cases hr : c.rest with
  | nil =>
    exact followsAt_of_ok (a := none) (by rw [hr]; rfl)
      (by simp [take?, peek_then, hr, pure_apply]) ⟨rfl, hc, hr⟩
  | cons t ts =>
    cases ha : f t.token with
    | none =>
      exact followsAt_of_ok (a := none) (by simp [Parser.take?, hr, ha])
        (by simp [take?, peek_then, hr, ha, pure_apply]) ⟨rfl, hc, hr⟩
    | some a =>
      exact followsAt_of_ok (a := some a) (by simp [Parser.take?, hr, ha])
        (by simp [take?, peek_then, advance_then, hr, ha, pure_apply]) (hc.reaches_next hr)

/-- A token that has to be there is passed if the parser takes it, and is at fault otherwise. -/
theorem follows_take (f : Token → Option α) {e : Expected} (he : e ≠ .closeBlock) :
    Follows (take f e) (Parser.take f e) := by
  intro c hc
  cases hr : c.rest with
  | nil =>
    exact followsAt_of_error (m := ⟨e, []⟩) (by rw [hr]; rfl)
      (by simp [take, peek_then, hr, fail_apply]) (hc.halts_self he)
  | cons t ts =>
    cases ha : f t.token with
    | none =>
      exact followsAt_of_error (m := ⟨e, t :: ts⟩) (by simp [Parser.take, hr, ha])
        (by simp [take, peek_then, hr, ha, fail_apply]) (hc.halts_self he)
    | some a =>
      exact followsAt_of_ok (a := a) (by simp [Parser.take, hr, ha])
        (by simp [take, peek_then, advance_then, hr, ha, pure_apply]) (hc.reaches_next hr)

theorem follows_symbol (s : Symbol) {e : Expected} (he : e ≠ .closeBlock) :
    Follows (symbol s e) (Parser.symbol s e) :=
  follows_take _ he

theorem follows_name {e : Expected} (he : e ≠ .closeBlock) :
    Follows (name e) (Parser.name e) :=
  follows_take _ he

/-- A token is passed by its test exactly if the parser takes it by the same test. -/
theorem follows_accept (test : Token → Bool) : Follows (accept test) (Parser.accept test) := by
  intro c hc
  cases hr : c.rest with
  | nil =>
    exact followsAt_of_ok (a := false) (by rw [hr]; rfl)
      (by simp [accept, peek_then, hr, pure_apply]) ⟨rfl, hc, hr⟩
  | cons t ts =>
    cases ht : test t.token with
    | false =>
      exact followsAt_of_ok (a := false) (by simp [Parser.accept, hr, ht])
        (by simp [accept, peek_then, hr, ht, pure_apply]) ⟨rfl, hc, hr⟩
    | true =>
      exact followsAt_of_ok (a := true) (by simp [Parser.accept, hr, ht])
        (by simp [accept, peek_then, advance_then, hr, ht, pure_apply]) (hc.reaches_next hr)

/-- Two tokens are passed by their tests or neither is. -/
theorem follows_acceptBoth (first second : Token → Bool) :
    Follows (acceptBoth first second) (Parser.acceptBoth first second) := by
  intro c hc
  have stay (hp : Parser.acceptBoth first second c.rest = .ok (false, c.rest))
      (hw : acceptBoth first second c = (.ok false, c)) :
      FollowsAt c (acceptBoth first second) (Parser.acceptBoth first second) :=
    followsAt_of_ok hp hw hc.reaches_self
  cases hr : c.rest with
  | nil =>
    exact stay (by rw [hr]; rfl) (by simp [acceptBoth, peek_then, peekSecond_then, hr, pure_apply])
  | cons t rest =>
    have hnext := hc.reaches_next hr
    cases rest with
    | nil =>
      exact stay (by rw [hr]; rfl)
        (by simp [acceptBoth, peek_then, peekSecond_then, hr, pure_apply])
    | cons u ts =>
      by_cases htu : first t.token = true ∧ second u.token = true
      · exact followsAt_of_ok (a := true) (by simp [Parser.acceptBoth, hr, htu])
          (by simp [acceptBoth, peek_then, peekSecond_then, advance_then, hr, htu, pure_apply])
          (hnext.trans (hnext.sound.reaches_next hnext.rest))
      · exact stay (by simp [Parser.acceptBoth, hr, htu])
          (by simp [acceptBoth, peek_then, peekSecond_then, hr, htu, pure_apply])

/-- A choice by the line of the next token.  The end mark is on a line too, which makes no
difference to a parser that takes nothing at the end. -/
theorem Follows.onLine {line : Nat} {a : α} (h : Follows w p) (hend : p [] = .ok (a, [])) :
    Follows (do if (← position).line = line then w else return a)
      (do if (← Parser.line?) = some line then p else return a) := by
  intro c hc
  by_cases hline : (c.rest.head?.elim c.finish (·.position)).line = line
  · refine (h hc).of_reaches hc.reaches_self (by rw [position_then, if_pos hline]) ?_
    rw [Parser.line?_then]
    cases hr : c.rest with
    | nil => exact hend.symm
    | cons t ts =>
      rw [hr] at hline
      exact congrFun (if_pos (congrArg some hline)) _
  · refine followsAt_of_ok (a := a) ?_ (by rw [position_then, if_neg hline]; rfl) hc.reaches_self
    rw [Parser.line?_then]
    cases hr : c.rest with
    | nil => rfl
    | cons t ts =>
      rw [hr] at hline
      exact congrFun (if_neg (hline ∘ Option.some.inj)) _

/-- A walk that passes whatever is there follows a parser that takes any token, of which the end of
a block may be missing and nothing else: the end mark is passed then. -/
theorem followsAt_advance_closeBlock (hc : c.IsSound) (f : Token → α) :
    FollowsAt c
      (do
        match ← advance with
        | some t => return f t.token
        | none => fail .closeBlock)
      (Parser.take (fun t => some (f t)) .closeBlock) := by
  cases hr : c.rest with
  | nil =>
    have hhalts := hc.halts_next hr
    refine followsAt_of_error (m := ⟨.closeBlock, []⟩) (by rw [hr]; rfl) ?_ hhalts
    rw [advance_then, hr]
    show fail .closeBlock c.next = _
    rw [fail_apply, hc.rest_next hr, congrArg Tape.finish hhalts.tape]
  | cons t ts =>
    exact followsAt_of_ok (a := f t.token) (by rw [hr]; rfl) (by rw [advance_then, hr]; rfl)
      (hc.reaches_next hr)

/-- A walk ends as a parser does, wherever there is a token. -/
def FollowsBeforeEnd (w : Walk α) (p : Parser α) : Prop :=
  ∀ ⦃c : Cursor⦄, c.IsSound → c.rest ≠ [] → FollowsAt c w p

theorem Follows.followsBeforeEnd (h : Follows w p) : FollowsBeforeEnd w p := fun _ hc _ => h hc

/-- A sequence whose first walk must not begin at the end mark must not either. -/
theorem FollowsBeforeEnd.bind {g : α → Walk β} {f : α → Parser β} (h : FollowsBeforeEnd w p)
    (hg : ∀ a, Follows (g a) (f a)) : FollowsBeforeEnd (w >>= g) (p >>= f) :=
  fun _ hc hr => (h hc hr).bind fun a _ _ hc' => hg a hc'

/-- A choice by the next two tokens takes nothing where they do not pass the tests. -/
theorem FollowsBeforeEnd.acceptBoth_then {first second : Token → Bool} {w' : Walk α}
    (h : Follows w p) (h' : FollowsBeforeEnd w' q) :
    FollowsBeforeEnd (do if ← acceptBoth first second then w else w')
      (do if ← Parser.acceptBoth first second then p else q) := by
  intro c hc hr
  refine (follows_acceptBoth first second hc).bind fun b c' hb hc' => ?_
  cases b with
  | true => exact h hc'
  | false =>
    refine h' hc' fun hnil => hr ?_
    by_cases hboth : Parser.BeginsBoth first second c.rest
    · obtain ⟨t, u, ts, hts, ht, hu⟩ := hboth
      rw [hts, Parser.acceptBoth_of_true ht hu] at hb
      cases hb
    · rw [Parser.acceptBoth_of_not hboth, hnil] at hb
      exact congrArg Prod.snd (Except.ok.inj hb)

/-- A walk that refuses the end mark follows a parser that refuses the end, wherever it begins. -/
theorem FollowsBeforeEnd.beforeEnd (h : FollowsBeforeEnd w p) {e : Expected}
    (he : e ≠ .closeBlock) : Follows (beforeEnd e w) (p.beforeEnd e) := by
  intro c hc
  cases hr : c.rest with
  | nil =>
    exact followsAt_of_error (m := ⟨e, []⟩) (by rw [hr]; rfl)
      (by simp [Walk.beforeEnd, peek_then, hr, fail_apply]) (hc.halts_self he)
  | cons t ts =>
    exact (h hc (by simp [hr])).of_reaches hc.reaches_self
      (by simp [Walk.beforeEnd, peek_then, hr]) (by simp [Parser.beforeEnd, hr])

/-! ### Loops -/

/-- Parsers that unfold as a loop does: a round and then the loop again while a test of the next
token holds, and nothing where it does not.  A round takes a token. -/
structure IsLoop (go : σ → Option Token → Bool) (round loop : σ → Parser σ) : Prop where
  advances : ∀ {s s' ts rest}, go s (first? ts) = true → round s ts = .ok (s', rest) →
    rest.length < ts.length
  again : ∀ {s ts}, go s (first? ts) = true → loop s ts = (round s >>= loop) ts
  stop : ∀ {s ts}, go s (first? ts) = false → loop s ts = .ok (s, ts)

section

variable {go : σ → Option Token → Bool} {body : σ → Walk σ} {round loop : σ → Parser σ}

/-- A loop ends where its test fails, with all its rounds on record. -/
theorem rounds_stop {left : Nat} {past : List Round} {s : σ} (hgo : go s (first? c.rest) = false) :
    rounds go body left past s c = (.ok s, c.record past) := by
  rw [first?, c.head?_rest] at hgo
  cases left <;> simp [rounds, hgo]

/-- A loop whose round succeeds goes on with that round on record. -/
theorem rounds_again {left : Nat} {past : List Round} {s s' : σ}
    (hgo : go s (first? c.rest) = true) (hb : body s c = (.ok s', c')) :
    rounds go body (left + 1) past s c =
      rounds go body left (past ++ [⟨c.index, some c'.index⟩]) s' c' := by
  rw [first?, c.head?_rest] at hgo
  simp [rounds, hgo, hb]

/-- A loop whose round halts is put on record with that round, which has no end. -/
theorem rounds_error {left : Nat} {past : List Round} {s : σ} {e : Halt}
    (hgo : go s (first? c.rest) = true) (hb : body s c = (.error e, c')) :
    rounds go body (left + 1) past s c = (.error e, c'.record (past ++ [⟨c.index, none⟩])) := by
  rw [first?, c.head?_rest] at hgo
  simp [rounds, hgo, hb]

/-- The places where rounds begin are different, so a loop reaches its end, or halts, before it has
had more rounds than it may have. -/
theorem followsAt_rounds (h : IsLoop go round loop)
    (hb : ∀ s ⦃c⦄, c.IsSound → go s (first? c.rest) = true → FollowsAt c (body s) (round s))
    (left : Nat) (past : List Round) (s : σ) (hc : c.IsSound) (hpast : ∀ r ∈ past, r.Advances)
    (hindex : past.length ≤ c.index) (hlimit : c.limit = past.length + left) :
    FollowsAt c (rounds go body left past s) (loop s) := by
  have hinside := hc.inside
  -- The rounds on record are no more than the places behind the cursor, so some are left to be had.
  induction left generalizing past s c with
  | zero =>
    have := hc.limit
    omega
  | succ left ih =>
    cases hgo : go s (first? c.rest) with
    | false =>
      refine followsAt_of_ok (h.stop hgo) (rounds_stop hgo) ⟨rfl, ?_, rfl⟩
      exact ⟨hinside, hc.visited, hc.loops.record (by omega) hpast, hc.limit⟩
    | true =>
      have hround := hb s hc hgo
      cases hr : round s c.rest with
      | error m =>
        obtain ⟨c', hbody, hc'⟩ := hround.error hr
        have hp : loop s c.rest = .error m := by rw [h.again hgo, Parser.bind_of_error hr]
        refine followsAt_of_error hp (rounds_error hgo hbody) ⟨hc'.tape, hc'.visited, ?_⟩
        refine hc'.loops.record ?_ (List.forall_mem_append.2 ⟨hpast, by simp [Round.Advances]⟩)
        rw [congrArg Tape.tokens hc'.tape, List.length_append, List.length_singleton]
        omega
      | ok r =>
        obtain ⟨s', ts⟩ := r
        obtain ⟨c', hbody, hc'⟩ := hround.ok hr
        have hlt := hc'.index_lt (h.advances hgo hr)
        have hp : loop s c.rest = loop s' ts := by rw [h.again hgo, Parser.bind_of_ok hr]
        rw [← hc'.rest] at hp
        refine FollowsAt.of_reaches ?_ hc' (rounds_again hgo hbody) hp
        refine ih (past ++ [⟨c.index, some c'.index⟩]) s' hc'.sound ?_ ?_ ?_ hc'.sound.inside
        · exact List.forall_mem_append.2 ⟨hpast, by simpa [Round.Advances] using hlt⟩
        · rw [List.length_append, List.length_singleton]
          omega
        · rw [congrArg Tape.limit hc'.tape, List.length_append, List.length_singleton]
          omega

/-- A loop follows what unfolds like it if its rounds do. -/
theorem follows_repeatWhile {s : σ} {q : Parser σ} (h : IsLoop go round loop) (hq : loop s = q)
    (hb : ∀ s ⦃c⦄, c.IsSound → go s (first? c.rest) = true → FollowsAt c (body s) (round s)) :
    Follows (repeatWhile go body s) q := by
  subst hq
  intro c hc
  exact (followsAt_rounds h hb c.limit [] s hc (by simp) (Nat.zero_le _) (by simp)).of_reaches
    hc.reaches_self rfl rfl

end

/-- The next token, whatever it is; none at the end. -/
def anyToken : Parser (Option Located) := fun ts => .ok (ts.head?, ts.tail)

theorem anyToken_then {f : Option Located → Parser β} {t : Located} {ts : List Located} :
    (anyToken >>= f) (t :: ts) = f (some t) ts := rfl

/-- A walk that passes whatever is there follows a parser that takes it, before the end mark. -/
theorem followsAt_advance (hc : c.IsSound) (h : c.rest ≠ []) : FollowsAt c advance anyToken := by
  cases hr : c.rest with
  | nil => contradiction
  | cons t ts =>
    exact followsAt_of_ok (a := some t) (by simp [anyToken, hr])
      (by rw [advance, ← c.head?_rest, hr]; rfl) (hc.reaches_next hr)

section

variable {go : σ → Option Token → Bool} {g : σ → Option Located → Walk σ}
variable {f : σ → Option Located → Parser σ} {loop : σ → Parser σ}

/-- A round that begins with the next token takes that one at least. -/
theorem isLoop_of_anyToken (hend : ∀ s, go s none = false) (hf : ∀ s t?, Parser.Shrinks (f s t?))
    (hagain : ∀ {s t ts}, go s (some t.token) = true →
      loop s (t :: ts) = (f s (some t) >>= loop) ts)
    (hstop : ∀ {s ts}, go s (first? ts) = false → loop s ts = .ok (s, ts)) :
    IsLoop go (fun s => anyToken >>= f s) loop where
  advances {s s' ts rest} hgo hr := by
    cases ts with
    | nil => simp [hend] at hgo
    | cons t ts => exact Nat.lt_succ_of_le (hf s (some t) hr)
  again {s ts} hgo := by
    cases ts with
    | nil => simp [hend] at hgo
    | cons t ts => rw [bind_assoc, anyToken_then, hagain hgo]
  stop := hstop

/-- A loop that does not go on at the end mark may pass whatever is there. -/
theorem follows_repeatWhile_advance {s : σ} {q : Parser σ} (hend : ∀ s, go s none = false)
    (h : IsLoop go (fun s => anyToken >>= f s) loop) (hq : loop s = q)
    (hg : ∀ s t?, Follows (g s t?) (f s t?)) :
    Follows (repeatWhile go (fun s => advance >>= g s) s) q := by
  refine follows_repeatWhile h hq fun s c hc hgo => ?_
  refine (followsAt_advance hc fun hr => ?_).bind fun t? _ _ hc' => hg s t? hc'
  simp [hr, hend] at hgo

end

/-- A run of tokens unfolds as a loop that takes one of them. -/
theorem isLoop_takeAll (f : Token → Option α) :
    IsLoop (fun _ t? => (t?.bind f).isSome)
      (fun as => do let t? ← anyToken; return as ++ (t?.bind (f ·.token)).toList)
      (fun as => do let more ← Parser.takeAll f; return as ++ more) := by
  refine isLoop_of_anyToken (fun _ => rfl) (fun _ _ => Parser.shrinks_pure _) ?_ ?_
  · intro as t ts hgo
    obtain ⟨a, ha⟩ := Option.isSome_iff_exists.1 hgo
    rw [Option.bind_some] at ha
    rw [Parser.bind_congr_left (Parser.takeAll_of_some ha)]
    simp only [bind_assoc, pure_bind, Option.bind_some, ha, Option.toList_some, List.append_assoc,
      List.singleton_append]
  · intro as ts hgo
    have hs : Parser.Stops (fun t => (f t).isSome) ts := by
      cases ts <;> simp_all
    rw [Parser.bind_of_ok (Parser.takeAll_of_stops hs), List.append_nil]
    rfl

/-- A run of tokens of one kind is passed up to where the parser stops. -/
theorem follows_takeAll (f : Token → Option α) : Follows (takeAll f) (Parser.takeAll f) :=
  follows_repeatWhile_advance (fun _ => rfl) (isLoop_takeAll f) (by simp) fun _ _ => follows_pure _

section

variable {stop : Option Token → Bool} {ends : List Located → Bool} {close : Symbol}
variable {item : Walk α} {one : Parser α} {hone : Advances one}

/-- A repetition unfolds as a loop that takes one item. -/
theorem isLoop_repeatUntil (hone : Advances one) (hends : ∀ ts, ends ts = stop (first? ts)) :
    IsLoop (fun _ t? => !stop t?) (fun as => do let a ← one; return as ++ [a])
      (fun as => do let more ← Parser.repeatUntil ends one hone; return as ++ more) where
  advances _ hr := hone.bind (fun _ => Parser.shrinks_pure _) hr
  again {as ts} hgo := by
    rw [Bool.not_eq_true', ← hends] at hgo
    rw [Parser.bind_congr_left (Parser.repeatUntil_of_go hgo)]
    simp only [bind_assoc, pure_bind, List.append_assoc, List.singleton_append]
  stop {as ts} hgo := by
    rw [Bool.not_eq_false', ← hends] at hgo
    rw [Parser.bind_of_ok (Parser.repeatUntil_of_stop hgo), List.append_nil]
    rfl

/-- A repetition of items is walked over as it is parsed if the items are. -/
theorem Follows.repeatUntil (h : Follows item one) (hends : ∀ ts, ends ts = stop (first? ts)) :
    Follows (repeatUntil stop item) (Parser.repeatUntil ends one hone) :=
  follows_repeatWhile (isLoop_repeatUntil hone hends) (by simp) fun _ _ hc _ =>
    h.bind (fun _ => follows_pure _) hc

/-- A repetition ends nowhere but at its end. -/
theorem ends_of_repeatUntil {as : List α} {ts rest : List Located}
    (h : Parser.repeatUntil ends one hone ts = .ok (as, rest)) : ends rest = true := by
  fun_induction Parser.repeatUntil ends one hone ts generalizing as with
  | case1 ts hs => cases h; exact hs
  | case2 => contradiction
  | case3 => contradiction
  | case4 ts _ a mid _ _ as' after hr ih =>
    cases h
    exact ih hr

/-- Items up to a closing symbol, which is there when the repetition has ended: so the walk may pass
it unseen. -/
theorem Follows.manyUntil (h : Follows item one) :
    Follows (manyUntil close item) (Parser.manyUntil close one hone) := by
  intro c hc
  refine (h.repeatUntil (begins_eq_first? close) hc).bind fun as c' hr hc' => ?_
  obtain ⟨t, ts, hrest, ht⟩ := Parser.begins_eq_true.1 (ends_of_repeatUntil hr)
  have hp : (do let _ ← Parser.accept (Parser.is close); return as) c'.rest = .ok (as, ts) := by
    rw [hrest, Parser.bind_of_ok (Parser.accept_of_true (Parser.is_eq_true.2 ht))]
    rfl
  exact followsAt_of_ok hp rfl (hc'.reaches_next hrest)

end

end Walk

end SchemaDiagram
