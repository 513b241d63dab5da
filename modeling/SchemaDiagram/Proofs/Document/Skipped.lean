import SchemaDiagram.Proofs.Document.Concat
import SchemaDiagram.Proofs.Grammar.Passed

/-!
# SchemaDiagram.Proofs.Document.Skipped

Declarations that mean nothing for the diagram, and those that are lost in them.

The keyword of a project, a group of tables or a note is looked for at the beginning of a
declaration, and its block is the next one, wherever that is.  So where such a declaration has a
block (`SkippedPlace`), nothing is lost; where its block is missing, all is passed over up to the
next declaration with a block, and that is taken for it:

```
Project shop        -- has no block
Ref: a.x > b.y      -- passed over
Table a …           -- taken for the block of the project
Table b …           -- the first declaration that counts
```

Only if no declaration with a block follows is the text no document (`skips_next_block`).
-/

namespace SchemaDiagram

open Phrase Locator

/-! ## Blocks -/

/-- An opening brace is among the tokens. -/
def HasBlock (ts : List Located) : Prop := ∃ t ∈ ts, t.token = .symbol .openBrace

section

variable {ts us rest : List Located}

/-- A block is among tokens if it is in one part of them or in the other. -/
theorem hasBlock_append : HasBlock (ts ++ us) ↔ HasBlock ts ∨ HasBlock us := by
  simp [HasBlock, or_and_right, exists_or]

/-- Tokens without braces have no block. -/
theorem not_hasBlock_of_braces (h : braces ts = []) : ¬ HasBlock ts := by
  rintro ⟨t, ht, hopen⟩
  have := List.flatMap_eq_nil_iff.1 h t ht
  rw [hopen] at this
  contradiction

/-- Tokens that are moved down have their blocks. -/
theorem hasBlock_below {n : Nat} : HasBlock (ts.map (.below n)) ↔ HasBlock ts := by
  simp [HasBlock, Located.below]

/-- What is passed over before a block has no opening brace. -/
theorem Rule.exists_unblocked_of_passed (h : Rule.passed ts rest) :
    ∃ taken, ts = taken ++ rest ∧ ¬ HasBlock taken := by
  induction h with
  | nil => exact ⟨[], rfl, not_hasBlock_of_braces rfl⟩
  | cons h _ ih =>
    obtain ⟨ys, rfl, hys⟩ := ih
    rcases choice_two.1 h with h | ⟨t, rfl, ht, -⟩
    · obtain ⟨xs, rfl, hxs⟩ := Rule.unbraced_settings h
      exact ⟨xs ++ ys, by simp, by simp [hasBlock_append, not_hasBlock_of_braces hxs, hys]⟩
    · refine ⟨t :: ys, rfl, ?_⟩
      rintro ⟨u, hu, hopen⟩
      rcases List.mem_cons.1 hu with rfl | hu
      · exact ht hopen
      · exact hys ⟨u, hu, hopen⟩

/-- What is passed over before a block has no block. -/
theorem Rule.not_hasBlock_of_passed (h : Rule.passed (ts ++ rest) rest) : ¬ HasBlock ts := by
  obtain ⟨taken, htaken, hnot⟩ := Rule.exists_unblocked_of_passed h
  rwa [List.append_cancel_right htaken]

/-- What is passed over is passed over before any tokens. -/
theorem Rule.exists_of_passed (h : Rule.passed ts rest) :
    ∃ taken, ts = taken ++ rest ∧ ∀ us, Rule.passed (taken ++ us) us :=
  free_blockHead.star h

/-- Tokens that may be passed over may be so in front of others. -/
theorem Rule.passed_append (h : Rule.passed ts []) (us : List Located) :
    Rule.passed (ts ++ us) us := by
  obtain ⟨taken, rfl, hfree⟩ := Rule.exists_of_passed h
  rw [List.append_nil]
  exact hfree us

end

/-! ## Declarations that are skipped -/

/-- What stands behind the keyword of a declaration that means nothing for the diagram, parted at
the braces of its block. -/
structure SkippedPlace where
  head : List Located
  opening : Located
  inside : List Located
  closing : Located

namespace SkippedPlace

/-- All tokens of the declaration but its keyword. -/
def tokens (p : SkippedPlace) : List Located :=
  p.head ++ p.opening :: (p.inside ++ [p.closing])

/-- Before the block stand settings and any other tokens but opening braces and brackets, and the
braces in the block are balanced. -/
structure IsRead (p : SkippedPlace) : Prop where
  head : Rule.passed p.head []
  unopened : ¬ HasBlock p.head
  opening : p.opening.token = .symbol .openBrace
  inside : Balanced (braces p.inside)
  closing : p.closing.token = .symbol .closeBrace

variable {p : SkippedPlace} {ts rest : List Located}

/-- A declaration that means nothing has a block. -/
theorem hasBlock_tokens (p : SkippedPlace) (h : p.IsRead) : HasBlock p.tokens :=
  ⟨p.opening, by simp [tokens], h.opening⟩

/-- The block of a skipped declaration is the next one behind its keyword. -/
theorem exists_of_skipped (h : Rule.skipped ts rest) :
    ∃ p : SkippedPlace, ts = p.tokens ++ rest ∧ p.IsRead := by
  obtain ⟨_, hpassed, _, ⟨_, ⟨t, rfl, ht⟩, _, hinside, _, ⟨u, rfl, hu⟩, rfl⟩, rfl⟩ := h
  obtain ⟨head, rfl, hfree⟩ := Rule.exists_of_passed hpassed
  obtain ⟨inside, rfl, hbalanced⟩ := Rule.balanced_inside hinside
  have hhead : Rule.passed (head ++ []) [] := hfree []
  rw [List.append_nil] at hhead
  exact ⟨⟨head, t, inside, u⟩, by simp [tokens], hhead, Rule.not_hasBlock_of_passed hpassed, ht,
    hbalanced, hu⟩

end SkippedPlace

namespace Grammar

open SchemaDiagram.Parser Document

variable {k : Located} {ts mid rest : List Located} {d : Declarations}
  {parts : List (List Located × Declarations)}

/-- References are a single one, or have a block. -/
theorem single_or_skipped_of_references {rs : List Reference}
    (h : references ts = .ok (rs, rest)) : (∃ r, rs = [r]) ∨ Rule.skipped ts rest := by
  obtain ⟨n, mid, h₁, h₂⟩ := bind_eq_ok.1 h
  rcases begins_or_stops (is .colon) mid with ⟨t, after, rfl, ht⟩ | hs
  · rw [accept_then_of_true ht] at h₂
    obtain ⟨r, _, _, h₃⟩ := bind_eq_ok.1 h₂
    cases h₃
    exact .inl ⟨r, rfl⟩
  · rw [accept_then_of_stops hs] at h₂
    obtain ⟨_, _, h₃, h₄⟩ := bind_eq_ok.1 h₂
    have hname : Rule.passed ts mid := Rule.passes_name.optional (derives_take?_name h₁)
    have hbody := derives_manyUntil h₄ fun _ _ _ _ h => derives_beforeEnd h derives_reference
    exact .inr (Rule.skipped_of_passed hname (Rule.block_of_balanced
      (.star composes_balanced Rule.balanced_reference) ⟨_, derives_symbol h₃, hbody⟩))

/-- All declarations but that of a single reference have a block. -/
theorem single_or_skipped_of_declaration (h : declaration ts = .ok (d, rest)) :
    (∃ r, d = { references := [r] }) ∨ Rule.skipped ts rest := by
  have hkeyword {t : Located} {after : List Located} {j : Keyword}
      (ht : t.token.isKeyword j = true) (hafter : Rule.skipped after rest) :
      Rule.skipped (t :: after) rest :=
    Rule.skipped_of_passed_of_skipped (Rule.passes_keyword j ⟨t, rfl, ht⟩) hafter
  unfold Grammar.declaration at h
  rcases begins_or_stops (·.isKeyword .table) ts with ⟨t, after, rfl, ht⟩ | htable
  · rw [accept_then_of_true ht] at h
    exact .inr (hkeyword ht (Rule.skipped_of_table (derives_table h)))
  rw [accept_then_of_stops htable] at h
  rcases begins_or_stops (·.isKeyword .ref) ts with ⟨t, after, rfl, ht⟩ | href
  · rw [accept_then_of_true ht] at h
    obtain ⟨rs, _, h₁, h₂⟩ := bind_eq_ok.1 h
    cases h₂
    rcases single_or_skipped_of_references h₁ with ⟨r, rfl⟩ | hskipped
    · exact .inl ⟨r, rfl⟩
    · exact .inr (hkeyword ht hskipped)
  rw [accept_then_of_stops href] at h
  rcases begins_or_stops (·.isKeyword .enum) ts with ⟨t, after, rfl, ht⟩ | henum
  · rw [accept_then_of_true ht] at h
    obtain ⟨e, _, h₁, h₂⟩ := bind_eq_ok.1 h
    cases h₂
    exact .inr (hkeyword ht (Rule.skipped_of_enumeration (derives_enumeration h₁)))
  rw [accept_then_of_stops henum] at h
  rcases begins_or_stops isSkipped ts with ⟨t, after, rfl, ht⟩ | hskipped
  · rw [accept_then_of_true ht] at h
    obtain ⟨_, _, h₁, h₂⟩ := bind_eq_ok.1 h
    cases h₂
    rcases isSkipped_iff.1 ht with hj | hj | hj <;> exact .inr (hkeyword hj (derives_skipped h₁))
  · rw [accept_then_of_stops hskipped] at h
    contradiction

/-! ## Runs of declarations -/

/-- A run of declarations up to the end is a document with what they declare. -/
theorem declarations_of_runs (h : Runs declaration ts parts []) :
    declarations ts = .ok (.concat (parts.map (·.2)), []) := by
  have hds : repeatUntil List.isEmpty declaration advances_declaration ts =
      .ok (parts.map (·.2), []) := by
    generalize hnil : ([] : List Located) = rest at h
    induction h with
    | nil => subst hnil; exact repeatUntil_of_stop rfl
    | cons hd _ ih =>
      rw [repeatUntil_of_ok (isEmpty_of_declaration hd) hd, bind_of_ok (ih hnil)]
      rfl
  rw [declarations, bind_of_ok hds]
  rfl

/-- A document is a run of declarations. -/
theorem exists_runs_of_declarations (h : declarations ts = .ok (d, [])) :
    ∃ parts, Runs declaration ts parts [] ∧ d = .concat (parts.map (·.2)) := by
  obtain ⟨ds, mid, h₁, h₂⟩ := bind_eq_ok.1 h
  cases h₂
  obtain ⟨parts, hparts, rfl, -⟩ := exists_runs_of_repeatUntil local_declaration id h₁
  exact ⟨parts, hparts, rfl⟩

/-- Further below the same declarations are read one by one, each from its own tokens. -/
theorem runs_below (h : Runs declaration ts parts rest) (n : Nat) :
    Runs declaration (ts.map (.below n)) (parts.map fun p => (p.1.map (.below n), p.2))
      (rest.map (.below n)) := by
  induction h with
  | nil => exact .nil
  | @cons taken mid _ d parts hd _ ih =>
    obtain ⟨mid', hd', hmid⟩ := uniform_declaration.exists_ok (sameShape_below n _) hd
    obtain ⟨taken', htaken, -⟩ := (local_declaration _).ok hd'
    have hlength : mid'.length = (mid.map (Located.below n)).length := by
      rw [hmid.length_eq, List.length_map]
    rw [List.map_append] at htaken hd' ⊢
    obtain ⟨-, rfl⟩ := List.append_inj' htaken hlength.symm
    exact .cons hd' ih

/-- Declarations that are moved down get no blocks. -/
theorem not_hasBlock_below (h : ∀ p ∈ parts, ¬ HasBlock p.1) (n : Nat) :
    ∀ p ∈ parts.map fun p => (p.1.map (Located.below n), p.2), ¬ HasBlock p.1 := by
  intro p hp
  obtain ⟨q, hq, rfl⟩ := List.mem_map.1 hp
  exact mt hasBlock_below.1 (h q hq)

/-- Tokens that end too early do so when they are moved down. -/
theorem declarations_below_of_error {e : Expected} (h : declarations ts = .error ⟨e, []⟩)
    (n : Nat) : declarations (ts.map (.below n)) = .error ⟨e, []⟩ := by
  have hagree := uniform_declarations (sameShape_below n ts)
  generalize declarations (ts.map (.below n)) = r at hagree
  rw [h] at hagree
  cases hagree with
  | error e hrest => rw [Tokenwise.nil hrest]

theorem fresh_below {n : Nat} : Fresh (ts.map (.below n)) ↔ Fresh ts := by
  simp [Fresh, Located.below]

/-- Declarations without a block are passed over. -/
theorem passed_of_runs (h : Runs declaration ts parts rest) (hparts : ∀ p ∈ parts, ¬ HasBlock p.1) :
    Rule.passed ts rest := by
  induction h with
  | nil => exact .nil
  | @cons taken mid _ d parts hd _ ih =>
    rcases Rule.passed_or_skipped (derives_declaration hd) with hpassed | hskipped
    · exact hpassed.append (ih fun p hp => hparts p (List.mem_cons_of_mem _ hp))
    · obtain ⟨p, htokens, hread⟩ := SkippedPlace.exists_of_skipped hskipped
      rw [List.append_cancel_right htokens] at hparts
      exact absurd (p.hasBlock_tokens hread) (hparts _ List.mem_cons_self)

/-- Declarations without a block and the next one with a block are one that is skipped. -/
theorem skipped_of_runs {short more : List (List Located × Declarations)} {taken : List Located}
    (h : Runs declaration ts (short ++ (taken, d) :: more) rest)
    (hshort : ∀ p ∈ short, ¬ HasBlock p.1) (htaken : HasBlock taken) :
    ∃ mid, Rule.skipped ts mid ∧ Runs declaration mid more rest := by
  obtain ⟨behind, hbefore, hafter⟩ := h.exists_of_append
  obtain ⟨mid, rfl, hd, hmore⟩ := hafter.exists_of_cons
  have hpassed := passed_of_runs hbefore hshort
  rcases Rule.passed_or_skipped (derives_declaration hd) with hnone | hskipped
  · exact absurd htaken (Rule.not_hasBlock_of_passed hnone)
  · exact ⟨mid, Rule.skipped_of_passed_of_skipped hpassed hskipped, hmore⟩

/-- Where no block follows, it is missed at the end. -/
theorem skipped_of_passed (h : Rule.passed ts []) : skipped ts = .error ⟨.openBlock, []⟩ := by
  have hheads : repeatUntil (begins .openBrace) blockHead advances_blockHead ts =
      .error ⟨.openBlock, []⟩ := by
    generalize hnil : ([] : List Located) = rest at h
    induction h with
    | nil => subst hnil; exact repeatUntil_of_error rfl rfl
    | cons h _ ih =>
      obtain ⟨hgo, _, hhead⟩ := takes_blockHead h
      rw [repeatUntil_of_ok hgo hhead, bind_of_error (ih hnil)]
  have hmany : manyUntil .openBrace blockHead advances_blockHead ts = .error ⟨.openBlock, []⟩ :=
    bind_of_error hheads
  exact bind_of_error hmany

/-- What is missed behind the declarations of a document is missed behind those of another one,
too. -/
theorem declarations_append_of_error {us : List Located} {m : Mismatch}
    (h : Runs declaration ts parts []) (hus : declarations us = .error m) (hfresh : Fresh us) :
    declarations (ts ++ us) = .error m := by
  have hds : repeatUntil List.isEmpty declaration advances_declaration us = .error m := by
    rcases bind_eq_error.1 hus with h | ⟨_, _, _, h⟩
    · exact h
    · contradiction
  have hall : repeatUntil List.isEmpty declaration advances_declaration (ts ++ us) = .error m := by
    generalize hnil : ([] : List Located) = rest at h
    induction h with
    | nil => subst hnil; exact hds
    | cons hd _ ih =>
      have hboth := declaration_append hd hfresh
      rw [repeatUntil_of_ok (isEmpty_of_declaration hboth) hboth, bind_of_error (ih hnil)]
  rw [declarations, bind_of_error hall]

end Grammar

/-! ## Texts -/

namespace Document

open Grammar SchemaDiagram.Parser

/-- The text is read without a fault, and its tokens are declarations, each with what it
declares. -/
structure Reads (source : String) (parts : List (List Located × Declarations)) : Prop where
  fault : (Lexing.of source).fault = none
  runs : Runs declaration (Lexing.of source).tokens parts []

/-- A text of the keyword of a declaration that means nothing and of what may stand before its
block, but no block. -/
structure Unblocked (source : String) : Prop where
  fault : (Lexing.of source).fault = none
  tokens : ∃ k head, (Lexing.of source).tokens = k :: head ∧ isSkipped k.token = true ∧
    Rule.passed head []

variable {a w b : String} {as bs : List (List Located × Declarations)}

/-- A text that is read as some declarations has what they declare. -/
theorem Reads.declares (h : Reads a as) : Declares a (.concat (as.map (·.2))) :=
  ⟨h.fault, declarations_of_runs h.runs⟩

/-- A text that holds a document is read as its declarations. -/
theorem exists_reads {source : String} {doc : SchemaDiagram.Document}
    (h : Document.ofSource source = .ok doc) :
    ∃ parts, Reads source parts ∧ doc = ofDeclarations (.concat (parts.map (·.2))) := by
  obtain ⟨d, hd, rfl⟩ := exists_declares h
  obtain ⟨parts, hparts, rfl⟩ := exists_runs_of_declarations hd.declarations
  exact ⟨parts, ⟨hd.fault, hparts⟩, rfl⟩

section

variable {source : String} {parts : List (List Located × Declarations)} {ts : List Located}
  {d : Declarations}

/-- Every declaration of a text is read in front of those behind it. -/
theorem Reads.exists_declaration (h : Reads source parts) (hmem : (ts, d) ∈ parts) :
    ∃ rest, declaration (ts ++ rest) = .ok (d, rest) :=
  h.runs.exists_of_mem hmem

/-- What stands behind a keyword of those that mean nothing. -/
theorem Reads.exists_place (h : Reads source parts) {k : Located} (hmem : (k :: ts, d) ∈ parts)
    (hk : isSkipped k.token = true) : d = {} ∧ ∃ p : SkippedPlace, ts = p.tokens ∧ p.IsRead := by
  obtain ⟨rest, hd⟩ := h.exists_declaration hmem
  obtain ⟨rfl, hskipped⟩ := (declaration_eq_ok_skipped hk).1 hd
  obtain ⟨p, htokens, hread⟩ := SkippedPlace.exists_of_skipped hskipped
  exact ⟨rfl, p, List.append_cancel_right htokens, hread⟩

/-- Only a single reference has no block. -/
theorem Reads.exists_reference (h : Reads source parts) (hmem : (ts, d) ∈ parts)
    (hnone : ¬ HasBlock ts) : ∃ r, d = { references := [r] } := by
  obtain ⟨rest, hd⟩ := h.exists_declaration hmem
  refine (single_or_skipped_of_declaration hd).resolve_right fun hskipped => hnone ?_
  obtain ⟨p, htokens, hread⟩ := SkippedPlace.exists_of_skipped hskipped
  rw [List.append_cancel_right htokens]
  exact p.hasBlock_tokens hread

end

/-- A keyword without its block in front of a document takes the first declaration with a block, and
all before it. -/
theorem Unblocked.declares_append (hw : Unblocked w)
    {short rest : List (List Located × Declarations)} {taken : List Located} {d : Declarations}
    (hb : Reads b (short ++ (taken, d) :: rest))
    (hshort : ∀ p ∈ short, ¬ HasBlock p.1) (htaken : HasBlock taken) :
    Declares (w ++ "\n" ++ b) (.concat (rest.map (·.2))) := by
  obtain ⟨k, head, htokens, hk, hhead⟩ := hw.tokens
  obtain ⟨n, hboth, hfault⟩ := Lexing.exists_tokens_append hw.fault hb.fault
  refine ⟨hfault, ?_⟩
  rw [hboth, htokens, List.cons_append]
  have hruns := runs_below hb.runs n
  rw [List.map_append, List.map_cons] at hruns
  obtain ⟨mid, hskipped, hmore⟩ :=
    skipped_of_runs hruns (not_hasBlock_below hshort n) (hasBlock_below.2 htaken)
  have hfirst := (declaration_eq_ok_skipped hk).2
    ⟨rfl, Rule.skipped_of_passed_of_skipped (Rule.passed_append hhead _) hskipped⟩
  obtain ⟨swallowed, heq, -⟩ := (local_declaration _).ok hfirst
  rw [heq] at hfirst ⊢
  have hall := declarations_of_runs (.cons hfirst hmore)
  rw [List.map_cons, List.map_map] at hall
  exact hall

/-- A keyword without its block in front of a document without a block misses it at the end. -/
theorem Unblocked.declarations_append (hw : Unblocked w) (hb : Reads b bs)
    (hbs : ∀ p ∈ bs, ¬ HasBlock p.1) :
    (Lexing.of (w ++ "\n" ++ b)).fault = none ∧
      declarations (Lexing.of (w ++ "\n" ++ b)).tokens = .error ⟨.openBlock, []⟩ := by
  obtain ⟨k, head, htokens, hk, hhead⟩ := hw.tokens
  obtain ⟨n, hboth, hfault⟩ := Lexing.exists_tokens_append hw.fault hb.fault
  refine ⟨hfault, ?_⟩
  rw [hboth, htokens, List.cons_append]
  have hpassed := passed_of_runs (runs_below hb.runs n) (not_hasBlock_below hbs n)
  have hfirst : declaration (k :: (head ++ (Lexing.of b).tokens.map (.below n))) =
      .error ⟨.openBlock, []⟩ := by
    rw [declaration_of_isSkipped hk]
    exact bind_of_error (skipped_of_passed ((Rule.passed_append hhead _).append hpassed))
  exact bind_of_error (repeatUntil_of_error rfl hfirst)

/-- A keyword may follow another declaration. -/
theorem Unblocked.fresh_append (hw : Unblocked w) (hb : (Lexing.of b).fault = none) :
    Fresh (Lexing.of (w ++ "\n" ++ b)).tokens := by
  obtain ⟨k, head, htokens, hk, -⟩ := hw.tokens
  obtain ⟨n, hboth, -⟩ := Lexing.exists_tokens_append hw.fault hb
  rw [hboth, htokens, List.cons_append, fresh_cons]
  rcases isSkipped_iff.1 hk with h | h | h <;> exact .inl (isName_of_isKeyword h)

/-- Behind another document it is missed, too. -/
theorem Reads.ofSource_append_of_error (ha : Reads a as) {source : String} {e : Expected}
    (hfault : (Lexing.of source).fault = none)
    (h : declarations (Lexing.of source).tokens = .error ⟨e, []⟩)
    (hfresh : Fresh (Lexing.of source).tokens) :
    Document.ofSource (a ++ "\n" ++ source) =
      .error (.unexpectedEnd e (Lexing.of (a ++ "\n" ++ source)).finish) := by
  obtain ⟨n, hboth, hnone⟩ := Lexing.exists_tokens_append ha.fault hfault
  have hall := declarations_append_of_error ha.runs (declarations_below_of_error h n)
    (fresh_below.2 hfresh)
  rw [← hboth] at hall
  exact ofSource_of_error hnone hall

/-- Among declarations with a block there is a first one. -/
theorem exists_first_block {parts : List (List Located × Declarations)}
    (h : ∃ p ∈ parts, HasBlock p.1) : ∃ short taken d rest,
      parts = short ++ (taken, d) :: rest ∧ (∀ p ∈ short, ¬ HasBlock p.1) ∧ HasBlock taken := by
  induction parts with
  | nil => simp at h
  | cons q parts ih =>
    by_cases hq : HasBlock q.1
    · exact ⟨[], q.1, q.2, parts, rfl, by simp, hq⟩
    · obtain ⟨short, taken, d, rest, rfl, hshort, htaken⟩ := ih (by simpa [hq] using h)
      exact ⟨q :: short, taken, d, rest, rfl, List.forall_mem_cons.2 ⟨hq, hshort⟩, htaken⟩

/-- A keyword without its block between two documents: what is lost, if a block follows. -/
theorem Unblocked.ofSource_between (hw : Unblocked w) (ha : Reads a as)
    {short rest : List (List Located × Declarations)} {taken : List Located} {d : Declarations}
    (hb : Reads b (short ++ (taken, d) :: rest)) (hshort : ∀ p ∈ short, ¬ HasBlock p.1)
    (htaken : HasBlock taken) :
    Document.ofSource (a ++ "\n" ++ w ++ "\n" ++ b) =
      .ok (ofDeclarations (.concat ((as ++ rest).map (·.2)))) := by
  have hboth := ha.declares.append (hw.declares_append hb hshort htaken)
  rw [← String.append_assoc, ← String.append_assoc] at hboth
  rw [hboth.ofSource, List.map_append, Declarations.concat_append]

/-- A keyword without its block between two documents: its block is missed, if none follows. -/
theorem Unblocked.ofSource_between_of_error (hw : Unblocked w) (ha : Reads a as) (hb : Reads b bs)
    (hbs : ∀ p ∈ bs, ¬ HasBlock p.1) :
    Document.ofSource (a ++ "\n" ++ w ++ "\n" ++ b) =
      .error (.unexpectedEnd .openBlock (Lexing.of (a ++ "\n" ++ w ++ "\n" ++ b)).finish) := by
  obtain ⟨hfault, herror⟩ := hw.declarations_append hb hbs
  have hboth := ha.ofSource_append_of_error hfault herror (hw.fresh_append hb.fault)
  rwa [← String.append_assoc, ← String.append_assoc] at hboth

/-- It is noticed only if no block follows. -/
theorem Unblocked.isDocument_iff (hw : Unblocked w) (ha : Reads a as)
    (hb : Reads b bs) :
    (∃ both, Document.ofSource (a ++ "\n" ++ w ++ "\n" ++ b) = .ok both) ↔
      ∃ p ∈ bs, HasBlock p.1 := by
  constructor
  · rintro ⟨both, hboth⟩
    by_contra hnone
    rw [hw.ofSource_between_of_error ha hb fun p hp hblock => hnone ⟨p, hp, hblock⟩] at hboth
    contradiction
  · intro hblock
    obtain ⟨short, taken, d, rest, rfl, hshort, htaken⟩ := exists_first_block hblock
    exact ⟨_, hw.ofSource_between ha hb hshort htaken⟩

/-- **The block of a project, a group of tables or a note is the next one behind its keyword.**  In
every document such a declaration has settings and any other tokens but opening braces and brackets
before its block, and means nothing.  A missing block in front of a document is noticed, at the end
of the text, only if no declaration of this has a block.  Else all is lost up to the first one that
has, that included, and no more: what follows behind counts. -/
theorem skips_next_block {source : String} {doc : SchemaDiagram.Document}
    (h : Document.ofSource source = .ok doc) :
    (∃ parts, Reads source parts) ∧ ∀ parts, Reads source parts →
      doc = ofDeclarations (.concat (parts.map (·.2))) ∧
      (∀ k ts d, (k :: ts, d) ∈ parts → isSkipped k.token = true →
        d = {} ∧ ∃ p : SkippedPlace, ts = p.tokens ∧ p.IsRead) ∧
      (∀ ts d, (ts, d) ∈ parts → ¬ HasBlock ts → ∃ r, d = { references := [r] }) ∧
      ∀ a w as, Reads a as → Unblocked w →
        ((∃ both, Document.ofSource (a ++ "\n" ++ w ++ "\n" ++ source) = .ok both) ↔
          ∃ p ∈ parts, HasBlock p.1) ∧
        (∀ short taken d rest, parts = short ++ (taken, d) :: rest →
          (∀ p ∈ short, ¬ HasBlock p.1) → HasBlock taken →
            Document.ofSource (a ++ "\n" ++ w ++ "\n" ++ source) =
              .ok (ofDeclarations (.concat ((as ++ rest).map (·.2))))) ∧
        ((∀ p ∈ parts, ¬ HasBlock p.1) →
          Document.ofSource (a ++ "\n" ++ w ++ "\n" ++ source) =
            .error (.unexpectedEnd .openBlock
              (Lexing.of (a ++ "\n" ++ w ++ "\n" ++ source)).finish)) := by
  constructor
  · obtain ⟨parts, hreads, -⟩ := exists_reads h
    exact ⟨parts, hreads⟩
  · intro parts hreads
    have hdoc := h.symm.trans hreads.declares.ofSource
    refine ⟨Except.ok.inj hdoc, fun _ _ _ hmem hk => hreads.exists_place hmem hk,
      fun _ _ hmem hnone => hreads.exists_reference hmem hnone, fun a w as ha hw => ?_⟩
    refine ⟨hw.isDocument_iff ha hreads, ?_, hw.ofSource_between_of_error ha hreads⟩
    rintro short taken d rest rfl hshort htaken
    exact hw.ofSource_between ha hreads hshort htaken

/-- A text of one declaration is read as that one. -/
theorem Reads.single {source : String} {d : Declarations} (hfault : (Lexing.of source).fault = none)
    (h : declaration (Lexing.of source).tokens = .ok (d, [])) :
    Reads source [((Lexing.of source).tokens, d)] := by
  refine ⟨hfault, ?_⟩
  have hruns : Runs declaration ((Lexing.of source).tokens ++ [])
      [((Lexing.of source).tokens, d)] [] := .cons (by rwa [List.append_nil]) .nil
  rwa [List.append_nil] at hruns

/-- A project without a block between two tables. -/
theorem skips_next_block_of_table :
    Document.ofSource
        ("Table a \x7b\n\x7d" ++ "\n" ++ "Project shop" ++ "\n" ++ "Table b \x7b\n\x7d") =
      .ok (ofDeclarations { tables := [{ name := "a" }] }) := by
  have ha : Reads "Table a \x7b\n\x7d" [(_, { tables := [{ name := "a" }] })] :=
    .single (by decide +kernel) (by decide +kernel)
  have hb : Reads "Table b \x7b\n\x7d" [(_, { tables := [{ name := "b" }] })] :=
    .single (by decide +kernel) (by decide +kernel)
  have hw : Unblocked "Project shop" := by
    refine ⟨by decide +kernel, ⟨.identifier "Project", ⟨1, 1⟩⟩, [⟨.identifier "shop", ⟨1, 9⟩⟩],
      by decide +kernel, by decide, Rule.passes_name ⟨_, rfl, .inl ⟨_, rfl⟩⟩⟩
  have hblock : HasBlock (Lexing.of "Table b \x7b\n\x7d").tokens := by
    rw [HasBlock]
    decide +kernel
  have hdoc : Document.ofSource "Table b \x7b\n\x7d" =
      .ok (ofDeclarations { tables := [{ name := "b" }] }) := by decide +kernel
  obtain ⟨-, hreads⟩ := skips_next_block hdoc
  obtain ⟨-, -, -, hbehind⟩ := hreads _ hb
  exact (hbehind _ _ _ ha hw).2.1 [] _ _ [] rfl (by simp) hblock

/-- A table behind a project without a block: the text is a document and has no table, and before
the block of the project stands not only a name. -/
theorem not_named_before_block :
    Document.ofSource "Project shop\nTable users \x7b\n  id int\n\x7d\n" = .ok (ofDeclarations {}) ∧
    ¬ ∀ source parts, Reads source parts → ∀ k ts d, (k :: ts, d) ∈ parts →
      isSkipped k.token = true → ∀ p : SkippedPlace, ts = p.tokens → p.IsRead →
        sequence [optional Rule.name, star Rule.settings] p.head [] := by
  refine ⟨by decide +kernel, fun h => ?_⟩
  let p : SkippedPlace := {
    head := [⟨.identifier "shop", ⟨1, 9⟩⟩, ⟨.identifier "Table", ⟨2, 1⟩⟩,
      ⟨.identifier "users", ⟨2, 7⟩⟩]
    opening := ⟨.symbol .openBrace, ⟨2, 13⟩⟩
    inside := [⟨.identifier "id", ⟨3, 3⟩⟩, ⟨.identifier "int", ⟨3, 6⟩⟩]
    closing := ⟨.symbol .closeBrace, ⟨4, 1⟩⟩ }
  have htokens : (Lexing.of "Project shop\nTable users \x7b\n  id int\n\x7d\n").tokens =
      ⟨.identifier "Project", ⟨1, 1⟩⟩ :: p.tokens := by decide +kernel
  have hreads : Reads "Project shop\nTable users \x7b\n  id int\n\x7d\n"
      [(⟨.identifier "Project", ⟨1, 1⟩⟩ :: p.tokens, {})] :=
    htokens ▸ .single (by decide +kernel) (by decide +kernel)
  have hpassed : Rule.passed p.head [] :=
    Rule.passes_name.star (.cons ⟨_, rfl, .inl ⟨_, rfl⟩⟩ (.cons ⟨_, rfl, .inl ⟨_, rfl⟩⟩
      (.single ⟨_, rfl, .inl ⟨_, rfl⟩⟩)))
  have hread : p.IsRead := ⟨hpassed, by simp [HasBlock, p], rfl, balanced_nil, rfl⟩
  obtain ⟨_, hname, _, hsettings, rfl⟩ :=
    h _ _ hreads _ _ _ List.mem_cons_self (by decide) p rfl hread
  have hstops {t : Located} {ts : List Located} (ht : t.token ≠ .symbol .openBracket) :
      ¬ star Rule.settings (t :: ts) [] := by
    rintro (_ | ⟨⟨_, ⟨u, hu, hbracket⟩, _⟩, _⟩)
    cases hu
    exact ht hbracket
  -- neither with a name in front nor without one do settings begin here
  rcases hname with rfl | ⟨t, ht, -⟩
  · exact hstops (by simp) hsettings
  · cases ht
    exact hstops (by simp) hsettings

end Document

end SchemaDiagram
