import SchemaDiagram.Proofs.Grammar.Complete
import SchemaDiagram.Proofs.Grammar.Locality
import SchemaDiagram.Proofs.Grammar.Sound

/-!
# SchemaDiagram.Proofs.Grammar.Ends

Where parts of a document end.

Locality says what a parser does in front of other tokens with the same first one.  `Ends P p` says
more of a parser that may look for more: where tokens with the property `P` are left it finds none,
and so it is in front of any others with that property.  A reference goes on with a point or a
bracket at most, and a declaration with neither, so a declaration ends in front of the next one or
of no token at all.
-/

namespace SchemaDiagram.Grammar

open SchemaDiagram.Parser

/-! ## Ends -/

/-- Where the parser leaves tokens with a property, it leaves any others with that property, too. -/
def Ends (P : List Located → Prop) (p : Parser α) : Prop :=
  ∀ ⦃ts a rest⦄, p ts = .ok (a, rest) → P rest →
    ∃ taken, ts = taken ++ rest ∧ ∀ ⦃rest'⦄, P rest' → p (taken ++ rest') = .ok (a, rest')

section

variable {P : List Located → Prop} {p q : Parser α} {f : α → Parser β}

/-- What such a parser takes it takes on its own, if there may be nothing left. -/
theorem Ends.exists_taken (hp : Ends P p) (hnil : P []) {ts rest : List Located} {a : α}
    (h : p ts = .ok (a, rest)) (hrest : P rest) :
    ∃ taken, ts = taken ++ rest ∧ p taken = .ok (a, []) := by
  obtain ⟨taken, rfl, htaken⟩ := hp h hrest
  have hown : p (taken ++ []) = .ok (a, []) := htaken hnil
  rw [List.append_nil] at hown
  exact ⟨taken, rfl, hown⟩

/-- A parser that takes nothing ends anywhere. -/
theorem ends_pure (a : α) : Ends P (pure a : Parser α) := by
  intro ts b rest h _
  obtain ⟨rfl, rfl⟩ := pure_eq_ok.1 h
  exact ⟨[], rfl, fun _ _ => rfl⟩

/-- A parser of one token ends behind it. -/
theorem ends_take (f : Token → Option α) (e : Expected) : Ends P (take f e) := by
  intro ts a rest h _
  obtain ⟨t, rfl, ht⟩ := take_eq_ok.1 h
  exact ⟨[t], rfl, fun _ _ => take_of_some ht⟩

/-- A sequence ends where its second part does.  If that takes no token, the first part has to end
there. -/
theorem ends_bind (hp : Local p) (hend : Ends P p ∨ ∀ a, Advances (f a))
    (hf : ∀ a, Ends P (f a)) : Ends P (p >>= f) := by
  intro ts b rest h hrest
  obtain ⟨a, mid, h₁, h₂⟩ := bind_eq_ok.1 h
  obtain ⟨ys, rfl, hys⟩ := hf a h₂ hrest
  cases ys with
  | nil =>
    rcases hend with hend | hadvances
    · obtain ⟨xs, rfl, hxs⟩ := hend h₁ hrest
      exact ⟨xs, rfl, fun rest' hrest' => (bind_of_ok (hxs hrest')).trans (hys hrest')⟩
    · exact absurd (hadvances a h₂) (Nat.lt_irrefl _)
  | cons t ys =>
    obtain ⟨xs, rfl, hxs⟩ := (hp ts).ok h₁
    refine ⟨xs ++ t :: ys, by simp, fun rest' hrest' => ?_⟩
    rw [List.append_assoc, bind_of_ok (hxs (t :: ys ++ rest') (alike_never rfl))]
    exact hys hrest'

/-- A value may be changed afterwards. -/
theorem ends_map {g : α → β} (hp : Ends P p) : Ends P (do let a ← p; return g a) := by
  intro ts b rest h hrest
  obtain ⟨a, mid, h₁, h₂⟩ := bind_eq_ok.1 h
  obtain ⟨rfl, rfl⟩ := pure_eq_ok.1 h₂
  obtain ⟨taken, rfl, htaken⟩ := hp h₁ hrest
  exact ⟨taken, rfl, fun rest' hrest' => bind_of_ok (htaken hrest')⟩

/-- A choice by the next token ends where both ways do, if there is a token to choose by or what is
left does not pass. -/
theorem ends_accept_then {test : Token → Bool} (hp : Ends P p) (hq : Ends P q)
    (hend : Advances q ∨ ∀ rest, P rest → Stops test rest) :
    Ends P (do if ← accept test then p else q) := by
  intro ts a rest h hrest
  rcases begins_or_stops test ts with ⟨t, ts, rfl, ht⟩ | hs
  · rw [accept_then_of_true ht] at h
    obtain ⟨taken, rfl, htaken⟩ := hp h hrest
    exact ⟨t :: taken, rfl, fun rest' hrest' => (accept_then_of_true ht).trans (htaken hrest')⟩
  · rw [accept_then_of_stops hs] at h
    obtain ⟨taken, rfl, htaken⟩ := hq h hrest
    refine ⟨taken, rfl, fun rest' hrest' => ?_⟩
    have hstops : Stops test (taken ++ rest') := by
      cases taken with
      | nil => exact (hend.resolve_left fun hq => absurd (hq h) (Nat.lt_irrefl _)) rest' hrest'
      | cons t taken => exact stops_cons.2 (stops_cons.1 hs)
    rw [accept_then_of_stops hstops]
    exact htaken hrest'

/-- Behind its closing symbol a repetition takes nothing. -/
theorem ends_manyUntil {close : Symbol} {item : Parser α} {hi : Advances item}
    (hitem : Local item) : Ends P (manyUntil close item hi) := by
  intro ts as rest h _
  obtain ⟨as', mid, h₁, h₂⟩ := bind_eq_ok.1 h
  have hstop := (derives_repeatUntil (a := fun _ _ => True) h₁ fun _ _ _ _ _ => trivial).2
  obtain ⟨t, after, rfl, ht⟩ := begins_eq_true.1 hstop
  rw [bind_of_ok (accept_of_true (is_eq_true.2 ht))] at h₂
  cases h₂
  obtain ⟨taken, rfl, htaken⟩ := (hitem.repeatUntil (begins_congr close) ts).ok h₁
  refine ⟨taken ++ [t], by simp, fun rest' _ => ?_⟩
  rw [List.append_assoc, List.singleton_append, manyUntil,
    bind_of_ok (htaken (t :: rest') (alike_never rfl)),
    bind_of_ok (accept_of_true (is_eq_true.2 ht))]
  rfl

end

/-! ## Names and paths -/

section

variable {P : List Located → Prop} {separator : Symbol} {stop : Token → Bool} {e : Expected}

/-- Names behind separators end where no separator is left. -/
theorem ends_namesAfter (hP : ∀ rest, P rest → Stops (is separator) rest) :
    Ends P (namesAfter separator stop e) := by
  intro ts ns rest h hrest
  fun_induction namesAfter separator stop e ts generalizing ns with
  | case1 =>
    cases h
    exact ⟨[], rfl, fun rest' hrest' => namesAfter_of_stops (hP _ hrest')⟩
  | case2 => contradiction
  | case3 =>
    cases h
    exact ⟨[], rfl, fun rest' hrest' => namesAfter_of_stops (hP _ hrest')⟩
  | case4 => contradiction
  | case5 => contradiction
  | case6 t u ts hgo n hn ns' after hr ih =>
    cases h
    obtain ⟨taken, rfl, htaken⟩ := ih hr
    rw [Bool.and_eq_true, Bool.not_eq_true'] at hgo
    refine ⟨t :: u :: taken, rfl, fun rest' hrest' => ?_⟩
    rw [List.cons_append, List.cons_append, namesAfter_of_name hgo.1 hgo.2 hn,
      bind_of_ok (htaken hrest')]
    rfl
  | case7 =>
    cases h
    exact ⟨[], rfl, fun rest' hrest' => namesAfter_of_stops (hP _ hrest')⟩

/-- Names behind separators end where what follows them does.  A separator and a stop that are left
in front of it are taken by what follows. -/
theorem ends_namesAfter_bind {f : List String → Parser β}
    (hend : (∀ rest, P rest → Stops (is separator) rest) ∨ ∀ ns, Advances (f ns))
    (hf : ∀ ns, Ends P (f ns))
    (htwo : ∀ ns t u, is separator t.token = true → stop u.token = true → ∀ ts b rest,
      f ns (t :: u :: ts) = .ok (b, rest) → rest.length ≤ ts.length) :
    Ends P (namesAfter separator stop e >>= f) := by
  intro ts b rest h hrest
  obtain ⟨ns, mid, h₁, h₂⟩ := bind_eq_ok.1 h
  obtain ⟨ys, rfl, hys⟩ := hf ns h₂ hrest
  cases ys with
  | nil =>
    rcases hend with hP | hadvances
    · obtain ⟨xs, rfl, hxs⟩ := ends_namesAfter hP h₁ hrest
      exact ⟨xs, rfl, fun rest' hrest' => (bind_of_ok (hxs hrest')).trans (hys hrest')⟩
    · exact absurd (hadvances ns h₂) (Nat.lt_irrefl _)
  | cons t ys =>
    obtain ⟨xs, rfl, hxs⟩ := (localAt_namesAfter separator stop e ts).ok h₁
    refine ⟨xs ++ t :: ys, by simp, fun rest' hrest' => ?_⟩
    have halike : Alike (is separator) (t :: ys ++ rest) (t :: ys ++ rest') := by
      refine ⟨rfl, (stops_of_namesAfter h₁).imp_right ?_⟩
      rintro ⟨_, u, after, heq, ht, hu⟩
      cases ys with
      | nil =>
        cases heq
        exact absurd (htwo ns _ u ht hu _ _ _ h₂) (Nat.not_succ_le_self _)
      | cons u ys => rfl
    rw [List.append_assoc, bind_of_ok (hxs _ halike)]
    exact hys hrest'

end

section

variable {P : List Located → Prop}

/-- The names between the parentheses of a list of fields, and its end. -/
theorem ends_fieldNames : Ends P (do
    let first ← name .fieldName
    let more ← namesAfter .comma (fun _ => false) .fieldName
    symbol .closeParen .closeFields
    return some (first :: more)) :=
  ends_bind (local_name _) (.inl (ends_take _ _)) fun _ =>
    ends_namesAfter_bind (.inr fun _ => (advances_symbol _ _).bind fun _ => shrinks_pure _)
      (fun _ => ends_map (ends_take _ _)) fun _ _ _ _ hu => by contradiction

/-- A list of fields ends with its parenthesis, and where there is none no point may be left. -/
theorem ends_fieldList (hdot : ∀ rest, P rest → Stops (is .dot) rest) : Ends P fieldList := by
  intro ts a rest h hrest
  by_cases hb : BeginsBoth (is .dot) (is .openParen) ts
  · obtain ⟨t, u, after, rfl, ht, hu⟩ := hb
    rw [fieldList, acceptBoth_then_of_true ht hu] at h
    obtain ⟨taken, rfl, htaken⟩ := ends_fieldNames h hrest
    refine ⟨t :: u :: taken, rfl, fun rest' hrest' => ?_⟩
    rw [List.cons_append, List.cons_append, fieldList, acceptBoth_then_of_true ht hu]
    exact htaken hrest'
  · rw [fieldList, acceptBoth_then_of_not hb] at h
    obtain ⟨rfl, rfl⟩ := pure_eq_ok.1 h
    refine ⟨[], rfl, fun rest' hrest' => ?_⟩
    rw [List.nil_append, fieldList,
      acceptBoth_then_of_not (not_beginsBoth_of_stops (hdot _ hrest'))]
    rfl

/-- A path ends where no point is left. -/
theorem ends_path (hdot : ∀ rest, P rest → Stops (is .dot) rest) : Ends P path := by
  refine ends_bind (local_name _) (.inl (ends_take _ _)) fun _ =>
    ends_namesAfter_bind (.inl hdot) (fun _ => ends_map (ends_fieldList hdot)) ?_
  intro ns t u ht hu ts b rest h
  obtain ⟨fs, mid, hfields, hpure⟩ := bind_eq_ok.1 h
  obtain ⟨-, rfl⟩ := pure_eq_ok.1 hpure
  rw [fieldList, acceptBoth_then_of_true ht hu] at hfields
  obtain ⟨taken, rfl, -⟩ := (local_fieldNames ts).ok hfields
  simp

/-! ## Settings and blocks -/

/-- Settings end with their bracket, and where there are none no bracket may be left. -/
theorem ends_settings (hbracket : ∀ rest, P rest → Stops (is .openBracket) rest) :
    Ends P settings :=
  ends_accept_then (ends_manyUntil local_setting) (ends_pure _) (.inr hbracket)

/-- A block ends with its own brace. -/
theorem ends_blockBody (depth : Nat) : Ends P (blockBody depth) := by
  intro ts
  induction ts generalizing depth with
  | nil => intro a rest h; contradiction
  | cons t ts ih =>
    intro a rest h hrest
    by_cases ho : t.token = .symbol .openBrace
    · rw [blockBody_of_open ho] at h
      obtain ⟨taken, rfl, htaken⟩ := ih _ h hrest
      exact ⟨t :: taken, rfl, fun _ hrest' => (blockBody_of_open ho _).trans (htaken hrest')⟩
    · by_cases hc : t.token = .symbol .closeBrace
      · cases depth with
        | zero =>
          rw [blockBody_of_close hc] at h
          cases h
          exact ⟨[t], rfl, fun _ _ => blockBody_of_close hc⟩
        | succ depth =>
          rw [blockBody_of_close_inner hc] at h
          obtain ⟨taken, rfl, htaken⟩ := ih _ h hrest
          exact ⟨t :: taken, rfl, fun _ hrest' =>
            (blockBody_of_close_inner hc _).trans (htaken hrest')⟩
      · rw [blockBody_of_other ho hc] at h
        obtain ⟨taken, rfl, htaken⟩ := ih _ h hrest
        exact ⟨t :: taken, rfl, fun _ hrest' => (blockBody_of_other ho hc _).trans (htaken hrest')⟩

/-- A declaration that means nothing ends with its block. -/
theorem ends_skipped : Ends P skipped :=
  ends_bind local_blockHead.manyUntil (.inl (ends_manyUntil local_blockHead)) fun _ =>
    ends_blockBody 0

/-! ## Declarations -/

/-- A table ends with its own brace. -/
theorem ends_table : Ends P table := by
  have hopen : ∀ {f : Unit → Parser Document.Declarations}, (∀ u, Shrinks (f u)) →
      Advances (Parser.symbol .openBrace .openTable >>= f) :=
    fun hf => (advances_symbol _ _).bind hf
  refine ends_bind (local_qualifiedName _) (.inr fun _ => ?_) fun _ =>
    ends_bind local_tableAlias (.inr fun _ => ?_) fun _ =>
      ends_bind local_settings (.inr fun _ => hopen fun _ => ?_) fun _ =>
        ends_bind (local_symbol _ _) (.inl (ends_take _ _)) fun _ =>
          ends_map (ends_manyUntil ((local_tableItem _ _).beforeEnd _))
  · exact shrinks_tableAlias.bind_advances fun _ => shrinks_settings.bind_advances fun _ =>
      hopen fun _ => (shrinks_manyUntil ..).bind fun _ => shrinks_pure _
  · exact shrinks_settings.bind_advances fun _ =>
      hopen fun _ => (shrinks_manyUntil ..).bind fun _ => shrinks_pure _
  · exact (shrinks_manyUntil ..).bind fun _ => shrinks_pure _

/-- A reference ends where neither a point nor a bracket is left. -/
theorem ends_reference (hdot : ∀ rest, P rest → Stops (is .dot) rest)
    (hbracket : ∀ rest, P rest → Stops (is .openBracket) rest) (n : Option String) :
    Ends P (reference n) :=
  ends_bind local_path (.inl (ends_path hdot)) fun _ =>
    ends_bind local_relation (.inl (ends_take _ _)) fun _ =>
      ends_bind local_path (.inl (ends_path hdot)) fun _ => ends_map (ends_settings hbracket)

/-- Only the name of references may be missing, but not what follows it. -/
theorem ends_references (hdot : ∀ rest, P rest → Stops (is .dot) rest)
    (hbracket : ∀ rest, P rest → Stops (is .openBracket) rest) : Ends P references := by
  have hblock (n : Option String) : Advances (do
      symbol .openBrace .referenceBody
      manyUntil .closeBrace ((reference n).beforeEnd .closeReferences)
        ((advances_reference n).beforeEnd _)) :=
    (advances_symbol _ _).bind fun _ => shrinks_manyUntil ..
  refine ends_bind (local_take? _) (.inr fun n => ?_) fun n => ?_
  · exact advances_accept_then ((advances_reference n).shrinks.bind fun _ => shrinks_pure _)
      (hblock n)
  · refine ends_accept_then (ends_map (ends_reference hdot hbracket n)) ?_ (.inl (hblock n))
    exact ends_bind (local_symbol _ _) (.inl (ends_take _ _)) fun _ =>
      ends_manyUntil ((local_reference n).beforeEnd _)

/-- An enumeration ends with its own brace. -/
theorem ends_enumeration : Ends P enumeration := by
  refine ends_bind (local_qualifiedName _) (.inr fun _ => ?_) fun _ =>
    ends_bind (local_symbol _ _) (.inl (ends_take _ _)) fun _ =>
      ends_map (ends_manyUntil local_enumValue)
  exact (advances_symbol _ _).bind fun _ => (shrinks_manyUntil ..).bind fun _ => shrinks_pure _

end

/-- A declaration ends in front of the next one.  It takes its keyword at least, whichever it is. -/
theorem ends_declaration : Ends Fresh declaration := by
  have hfail : Advances (fail .declaration : Parser Document.Declarations) := advances_fail _
  have hskipped := shrinks_skipped.bind fun _ => shrinks_pure ({} : Document.Declarations)
  have henumeration := shrinks_enumeration.bind fun e =>
    shrinks_pure ({ enumerations := [e] } : Document.Declarations)
  have hreferences := shrinks_references.bind fun references =>
    shrinks_pure ({ references } : Document.Declarations)
  have hends : Ends Fresh references :=
    ends_references (fun _ h => h.stops (by decide)) fun _ h => h.stops (by decide)
  refine ends_accept_then ends_table ?_ (.inl ?_)
  · refine ends_accept_then (ends_map hends) ?_ (.inl ?_)
    · refine ends_accept_then (ends_map ends_enumeration) ?_ (.inl ?_)
      · refine ends_accept_then (ends_map ends_skipped) ?_ (.inl hfail)
        intro ts a rest h
        contradiction
      · exact advances_accept_then hskipped hfail
    · exact advances_accept_then henumeration (advances_accept_then hskipped hfail)
  · exact advances_accept_then hreferences
      (advances_accept_then henumeration (advances_accept_then hskipped hfail))

end SchemaDiagram.Grammar
