import SchemaDiagram.Proofs.Grammar.Free
import SchemaDiagram.Proofs.Grammar.Nesting

/-!
# SchemaDiagram.Proofs.Grammar.Passed

What a declaration that means nothing for the diagram passes over.

Up to its block it takes settings, and any tokens but opening braces and brackets (`Rule.passed`).
Whole references may be passed over, and all that stands before the block of a table, an enumeration
or other references.  Every declaration therefore is passed over to its end, or is one that could be
passed over if it had another keyword in front (`Rule.passed_or_skipped`).
-/

namespace SchemaDiagram

open Phrase Locator

/-! ## Balanced braces -/

namespace Grammar

open SchemaDiagram.Parser

/-- Braces among which none is closed that is not open add to those that are open. -/
theorem blockBody_append {xs : List Located} {depth n : Nat}
    (hopen : ∀ ys zs, braces xs = ys ++ zs → 0 ≤ depth + balance ys)
    (hn : (n : Int) = depth + balance (braces xs)) (ts : List Located) :
    blockBody depth (xs ++ ts) = blockBody n ts := by
  induction xs generalizing depth with
  | nil =>
    obtain rfl : n = depth := by
      rw [braces_nil, balance_nil] at hn
      omega
    rfl
  | cons t xs ih =>
    rw [braces_cons] at hopen hn
    rw [balance_append] at hn
    rw [List.cons_append]
    by_cases ho : t.token = .symbol .openBrace
    · simp only [ho, Token.braces, balance_openBrace] at hopen hn
      rw [blockBody_of_open ho]
      refine ih (fun ys zs h => ?_) (by push_cast; omega)
      have := hopen ('{' :: ys) zs (by rw [h]; rfl)
      rw [balance_cons, balance_openBrace] at this
      push_cast
      omega
    by_cases hc : t.token = .symbol .closeBrace
    · simp only [hc, Token.braces, balance_closeBrace] at hopen hn
      have hpos := hopen ['}'] (braces xs) rfl
      rw [balance_closeBrace] at hpos
      obtain ⟨inner, rfl⟩ : ∃ inner, depth = inner + 1 := ⟨depth - 1, by omega⟩
      rw [blockBody_of_close_inner hc]
      refine ih (fun ys zs h => ?_) (by push_cast at hn; omega)
      have := hopen ('}' :: ys) zs (by rw [h]; rfl)
      rw [balance_cons, balance_closeBrace] at this
      push_cast at this
      omega
    · rw [Token.braces_eq_nil ho hc, List.nil_append] at hopen
      rw [Token.braces_eq_nil ho hc, balance_nil, Int.zero_add] at hn
      rw [blockBody_of_other ho hc]
      exact ih hopen hn

end Grammar

namespace Rule

variable {a b : Phrase} {ts mid rest : List Located}

/-- Tokens whose braces are balanced may stand in a block. -/
theorem inside_of_balanced {xs : List Located} (h : Balanced (braces xs)) (rest : List Located) :
    inside (xs ++ rest) rest := by
  let closing : Located := ⟨.symbol .closeBrace, .start⟩
  have hopen : ∀ ys zs, braces xs = ys ++ zs → 0 ≤ ((0 : Nat) : Int) + balance ys := by
    simpa using h.begun
  have hbody : Grammar.blockBody 0 (xs ++ [closing]) = .ok ((), []) := by
    rw [Grammar.blockBody_append hopen (n := 0) (by simp [h.total])]
    exact Grammar.blockBody_of_close rfl
  obtain ⟨_, hinside, _, ⟨u, rfl, -⟩, _, rfl, rfl⟩ := Grammar.derives_blockBody hbody
  obtain ⟨taken, htaken, hfree⟩ := free_inside hinside
  rw [(List.append_inj' htaken rfl).1]
  exact hfree rest

/-- Braces around a part that opens and closes braces in pairs are those of a block. -/
theorem block_of_balanced (ha : Marks Balanced a)
    (h : sequence [symbol .openBrace, a, symbol .closeBrace] ts rest) : block ts rest := by
  obtain ⟨_, hopening, _, hbody, hclosing⟩ := h
  obtain ⟨taken, rfl, htaken⟩ := ha hbody
  exact ⟨_, hopening, _, inside_of_balanced htaken _, hclosing⟩

/-! ## Before a block -/

/-- What may stand between the keyword of a declaration that means nothing and its block. -/
def passed : Phrase :=
  star (choice [settings, token fun t => t ≠ .symbol .openBrace ∧ t ≠ .symbol .openBracket])

/-- A declaration that means nothing is what it passes over and its block. -/
theorem skipped_of_passed (h : passed ts mid) (hblock : block mid rest) : skipped ts rest :=
  ⟨mid, h, rest, hblock, rfl⟩

/-- More may be passed over before a declaration goes on. -/
theorem skipped_of_passed_of_skipped (h : passed ts mid) (hskipped : skipped mid rest) :
    skipped ts rest := by
  obtain ⟨_, hpassed, hblock⟩ := hskipped
  exact ⟨_, h.append hpassed, hblock⟩

/-- A part that may be passed over. -/
def Passes (a : Phrase) : Prop := ∀ ⦃ts rest⦄, a ts rest → passed ts rest

namespace Passes

theorem empty : Passes empty := by
  rintro ts _ rfl
  exact .nil

/-- A token may be passed over if it is neither an opening brace nor an opening bracket. -/
theorem token {kind : Token → Prop}
    (h : ∀ t, kind t → t ≠ .symbol .openBrace ∧ t ≠ .symbol .openBracket) :
    Passes (token kind) := by
  rintro ts rest ⟨t, rfl, ht⟩
  exact .single ⟨_, .tail _ (.head _), t, rfl, h _ ht⟩

/-- A sequence may be passed over if both of its parts may. -/
theorem seq (ha : Passes a) (hb : Passes b) : Passes (seq a b) := by
  rintro ts rest ⟨mid, h₁, h₂⟩
  exact (ha h₁).append (hb h₂)

/-- A part that may be absent may be passed over if the part may. -/
theorem optional (ha : Passes a) : Passes (optional a) := by
  rintro ts rest (rfl | h)
  · exact .nil
  · exact ha h

/-- A repetition may be passed over if the part that is repeated may. -/
theorem star (ha : Passes a) : Passes (star a) := by
  intro ts rest h
  induction h with
  | nil => exact .nil
  | cons h₁ _ ih => exact (ha h₁).append ih

end Passes

theorem passes_settings : Passes settings := fun _ _ h => .single ⟨_, .head _, h⟩

/-- A keyword is passed over as any word is. -/
theorem passes_keyword (k : Keyword) : Passes (keyword k) := .token <| by
  intro t ht
  cases t with
  | symbol s => contradiction
  | _ => simp

/-- All symbols may be passed over but the two that begin a block or settings. -/
theorem passes_symbol {s : Symbol} (ho : s ≠ .openBrace) (hb : s ≠ .openBracket) :
    Passes (symbol s) := .token <| by
  rintro _ rfl
  simp [ho, hb]

theorem passes_name : Passes name := .token <| by
  rintro _ (⟨text, rfl⟩ | ⟨text, rfl⟩) <;> simp

theorem passes_relation : Passes (token IsRelation) := .token <| by
  rintro _ (rfl | rfl | rfl | rfl) <;> simp

/-- A table's name may be passed over. -/
theorem passes_qualified : Passes qualified :=
  passes_name.seq (((passes_symbol (by decide) (by decide)).seq
    (passes_name.seq .empty)).optional.seq .empty)

/-- A list of fields stands in parentheses, so it may be passed over. -/
theorem passes_fieldList : Passes fieldList :=
  (passes_symbol (by decide) (by decide)).seq ((passes_symbol (by decide) (by decide)).seq
    (passes_name.seq (((passes_symbol (by decide) (by decide)).seq (passes_name.seq
      .empty)).star.seq ((passes_symbol (by decide) (by decide)).seq .empty))))

/-- A path may be passed over. -/
theorem passes_path : Passes path :=
  passes_name.seq (((passes_symbol (by decide) (by decide)).seq (passes_name.seq .empty)).star.seq
    (passes_fieldList.optional.seq .empty))

/-- A whole reference may be passed over, with its settings. -/
theorem passes_reference : Passes reference :=
  passes_path.seq (passes_relation.seq (passes_path.seq (passes_settings.optional.seq .empty)))

/-! ## Declarations -/

/-- A reference has no braces. -/
theorem balanced_reference : Marks Balanced reference :=
  balanced_of_unbraced (unbraced_path.seq (unbraced_relation.seq (unbraced_path.seq
    (unbraced_settings.optional.seq unbraced_empty))))

/-- A value of an enumeration has no braces. -/
theorem balanced_value : Marks Balanced (sequence [name, optional settings]) :=
  balanced_of_unbraced (unbraced_name.seq (unbraced_settings.optional.seq unbraced_empty))

/-- A table is passed over up to its block. -/
theorem skipped_of_table (h : table ts rest) : skipped ts rest := by
  obtain ⟨_, h₁, _, h₂, _, h₃, hblock⟩ := h
  have hhead : passed ts _ := (passes_qualified h₁).append
    ((((passes_keyword _).seq (passes_name.seq .empty)).optional h₂).append
      (passes_settings.optional h₃))
  exact skipped_of_passed hhead (block_of_balanced (.star composes_balanced balanced_item) hblock)

/-- An enumeration is passed over up to its block. -/
theorem skipped_of_enumeration (h : enumeration ts rest) : skipped ts rest := by
  obtain ⟨_, h₁, hblock⟩ := h
  exact skipped_of_passed (passes_qualified h₁)
    (block_of_balanced (.star composes_balanced balanced_value) hblock)

/-- A single reference is passed over to its end, and several up to their block. -/
theorem passed_or_skipped_of_references (h : references ts rest) :
    passed ts rest ∨ skipped ts rest := by
  obtain ⟨mid, h₁, _, h₂, rfl⟩ := h
  have hname : passed ts mid := passes_name.optional h₁
  rcases choice_two.1 h₂ with ⟨_, hcolon, _, hreference, rfl⟩ | hblock
  · exact .inl (hname.append ((passes_symbol (by decide) (by decide) hcolon).append
      (passes_reference hreference)))
  · exact .inr (skipped_of_passed hname
      (block_of_balanced (.star composes_balanced balanced_reference) hblock))

/-- A declaration is passed over to its end, or up to its block. -/
theorem passed_or_skipped (h : declaration ts rest) : passed ts rest ∨ skipped ts rest := by
  rcases choice_four.1 h with h | h | h | h
  · obtain ⟨_, hkey, _, htable, rfl⟩ := h
    exact .inr (skipped_of_passed_of_skipped (passes_keyword _ hkey) (skipped_of_table htable))
  · obtain ⟨_, hkey, _, hreferences, rfl⟩ := h
    have hkeyword := passes_keyword _ hkey
    exact (passed_or_skipped_of_references hreferences).imp hkeyword.append
      (skipped_of_passed_of_skipped hkeyword)
  · obtain ⟨_, hkey, _, henumeration, rfl⟩ := h
    exact .inr (skipped_of_passed_of_skipped (passes_keyword _ hkey)
      (skipped_of_enumeration henumeration))
  · obtain ⟨_, hkey, _, hskipped, rfl⟩ := h
    obtain ⟨t, k, rfl, ht, -⟩ := Grammar.exists_skippedKeyword hkey
    exact .inr (skipped_of_passed_of_skipped (passes_keyword k ⟨t, rfl, ht⟩) hskipped)

end Rule

end SchemaDiagram
