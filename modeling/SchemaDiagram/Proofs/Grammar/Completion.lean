import SchemaDiagram.Proofs.Grammar.Phrase

/-!
# SchemaDiagram.Proofs.Grammar.Completion

How the beginning of a part of the grammar goes on.

`Completes a taken` says that the tokens taken so far can be completed to the part `a`, by tokens
that may stand anywhere and in front of whatever follows.
-/

namespace SchemaDiagram.Phrase

/-! ## Completions -/

/-- With some tokens behind them, the tokens make up the part. -/
def Completes (a : Phrase) (taken : List Located) : Prop :=
  ∃ added : List Token, ∀ more rest, more.map (·.token) = added → a (taken ++ more ++ rest) rest

variable {a b : Phrase} {taken xs : List Located}

/-- What completes a part completes one that takes as much. -/
theorem Completes.mono (ha : Completes a taken) (h : ∀ ts rest, a ts rest → b ts rest) :
    Completes b taken := by
  obtain ⟨added, hadded⟩ := ha
  exact ⟨added, fun more rest hm => h _ _ (hadded more rest hm)⟩

/-- The empty part is complete. -/
theorem completes_empty : Completes empty [] := by
  refine ⟨[], fun more rest hm => ?_⟩
  rw [List.map_eq_nil_iff.1 hm]
  rfl

/-- A token of the kind completes a part that is one. -/
theorem completes_token {kind : Token → Prop} {t : Token} (h : kind t) :
    Completes (token kind) [] := by
  refine ⟨[t], fun more rest hm => ?_⟩
  obtain ⟨u, rfl, hu⟩ := List.map_eq_singleton_iff.1 hm
  exact ⟨u, rfl, hu ▸ h⟩

theorem completes_symbol (s : Symbol) : Completes (symbol s) [] := completes_token rfl

/-- One part is completed and the next one put behind it. -/
theorem Completes.seq (ha : Completes a taken) (hb : Completes b []) :
    Completes (seq a b) taken := by
  obtain ⟨first, hfirst⟩ := ha
  obtain ⟨second, hsecond⟩ := hb
  refine ⟨first ++ second, fun more rest hm => ?_⟩
  obtain ⟨more₁, more₂, rfl, h₁, h₂⟩ := List.map_eq_append_iff.1 hm
  refine ⟨more₂ ++ rest, ?_, hsecond more₂ rest h₂⟩
  have h := hfirst more₁ (more₂ ++ rest) h₁
  simpa using h

/-- A part is completed behind one that is there already. -/
theorem Completes.behind (hb : Completes b taken) (ha : ∀ rest, a (xs ++ rest) rest) :
    Completes (Phrase.seq a b) (xs ++ taken) := by
  obtain ⟨added, hadded⟩ := hb
  refine ⟨added, fun more rest hm => ⟨taken ++ more ++ rest, ?_, hadded more rest hm⟩⟩
  simpa using ha (taken ++ more ++ rest)

/-- A part is completed behind the token in front of it. -/
theorem Completes.cons {kind : Token → Prop} {t : Located} (hb : Completes b taken)
    (ht : kind t.token) : Completes (Phrase.seq (token kind) b) (t :: taken) := by
  show Completes _ ([t] ++ taken)
  exact hb.behind fun rest => ⟨t, rfl, ht⟩

/-- A part that may be left out is complete. -/
theorem completes_optional : Completes (optional a) [] :=
  completes_empty.mono fun _ _ h => .inl h

/-- A repetition that has not begun is complete. -/
theorem completes_star : Completes (star a) [] :=
  completes_empty.mono fun _ _ h => h ▸ .nil

/-- A repetition is completed by completing its first time. -/
theorem Completes.star (h : Completes a taken) : Completes (star a) taken :=
  h.mono fun _ _ h => .single h

/-- A choice is completed by completing one of its parts. -/
theorem Completes.choice {as : List Phrase} (h : Completes a taken) (ha : a ∈ as) :
    Completes (choice as) taken :=
  h.mono fun _ _ h => ⟨a, ha, h⟩

end SchemaDiagram.Phrase
