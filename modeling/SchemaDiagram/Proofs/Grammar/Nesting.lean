import SchemaDiagram.Proofs.Document.Places
import SchemaDiagram.Proofs.Locator.Block

/-!
# SchemaDiagram.Proofs.Grammar.Nesting

The braces among the tokens of a declaration.

`Marks q a` says of the braces that a phrase takes that they have the property `q`.  Names, types and
settings have none.  The items of a table open and close braces in pairs, so that those between the
braces of a table are balanced (`balanced_body`).
-/

namespace SchemaDiagram

open Phrase Locator

/-! ## Properties of braces -/

/-- The braces that the part takes have a property. -/
def Marks (q : List Char → Prop) (a : Phrase) : Prop :=
  ∀ ⦃ts rest⦄, a ts rest → ∃ taken, ts = taken ++ rest ∧ q (braces taken)

/-- A property that no braces have, and braces behind each other if both have it. -/
structure Composes (q : List Char → Prop) : Prop where
  nil : q []
  append : ∀ {xs ys}, q xs → q ys → q (xs ++ ys)

/-- Balanced braces behind balanced braces are balanced. -/
theorem composes_balanced : Composes Balanced := ⟨balanced_nil, .append⟩

/-- Not to be there. -/
def IsAbsent (cs : List Char) : Prop := cs = []

/-- No braces behind no braces are none. -/
theorem composes_isAbsent : Composes IsAbsent where
  nil := rfl
  append hx hy := by rw [IsAbsent, hx, hy, List.append_nil]

namespace Marks

variable {q r : List Char → Prop} {a b : Phrase}

/-- A property of the braces may be made weaker. -/
theorem mono (h : Marks q a) (hqr : ∀ cs, q cs → r cs) : Marks r a := by
  intro ts rest hts
  obtain ⟨taken, rfl, htaken⟩ := h hts
  exact ⟨taken, rfl, hqr _ htaken⟩

theorem empty (hq : Composes q) : Marks q empty := by
  rintro ts _ rfl
  exact ⟨[], rfl, hq.nil⟩

/-- A token has the property if every token of its kind does. -/
theorem token {kind : Token → Prop} (h : ∀ t, kind t → q t.braces) : Marks q (token kind) := by
  rintro ts rest ⟨t, rfl, ht⟩
  exact ⟨[t], rfl, by simpa using h _ ht⟩

/-- A sequence has the property if both of its parts do. -/
theorem seq (hq : Composes q) (ha : Marks q a) (hb : Marks q b) : Marks q (seq a b) := by
  rintro ts rest ⟨mid, h₁, h₂⟩
  obtain ⟨xs, rfl, hxs⟩ := ha h₁
  obtain ⟨ys, rfl, hys⟩ := hb h₂
  exact ⟨xs ++ ys, by simp, by simpa using hq.append hxs hys⟩

/-- A choice has the property if all that may be chosen do. -/
theorem choice {as : List Phrase} (h : ∀ a ∈ as, Marks q a) : Marks q (choice as) := by
  rintro ts rest ⟨a, ha, hts⟩
  exact h a ha hts

/-- A part that may be absent has the property if the part does. -/
theorem optional (hq : Composes q) (ha : Marks q a) : Marks q (optional a) := by
  rintro ts rest (rfl | h)
  · exact ⟨[], rfl, hq.nil⟩
  · exact ha h

/-- A repetition has the property if the part that is repeated does. -/
theorem star (hq : Composes q) (ha : Marks q a) : Marks q (star a) := by
  intro ts rest h
  induction h with
  | nil => exact ⟨[], rfl, hq.nil⟩
  | cons h₁ _ ih =>
    obtain ⟨xs, rfl, hxs⟩ := ha h₁
    obtain ⟨ys, rfl, hys⟩ := ih
    exact ⟨xs ++ ys, by simp, by simpa using hq.append hxs hys⟩

/-- What is asked of the tokens ahead takes no token, so it changes nothing about braces. -/
theorem ahead {property : List Located → Prop} (ha : Marks q a) : Marks q (ahead property a) :=
  fun _ _ h => ha h.2

end Marks

/-! ## Parts without braces -/

/-- All tokens but the two braces are without braces. -/
theorem Token.braces_eq_nil {t : Token} (ho : t ≠ .symbol .openBrace)
    (hc : t ≠ .symbol .closeBrace) : t.braces = [] := by
  unfold Token.braces
  split
  · contradiction
  · contradiction
  · rfl

namespace Rule

/-- The part takes no brace. -/
def Unbraced : Phrase → Prop := Marks IsAbsent

/-- A token is without braces if every token of its kind is. -/
theorem unbraced_token {kind : Token → Prop} (h : ∀ t, kind t → t.braces = []) :
    Unbraced (token kind) :=
  .token h

theorem unbraced_empty : Unbraced empty := .empty composes_isAbsent

namespace Unbraced

variable {a b : Phrase}

theorem seq (ha : Unbraced a) (hb : Unbraced b) : Unbraced (seq a b) :=
  Marks.seq composes_isAbsent ha hb

theorem optional (ha : Unbraced a) : Unbraced (optional a) := Marks.optional composes_isAbsent ha

theorem star (ha : Unbraced a) : Unbraced (star a) := Marks.star composes_isAbsent ha

end Unbraced

theorem unbraced_word : Unbraced word := unbraced_token <| by
  rintro _ ⟨text, rfl⟩
  rfl

theorem unbraced_quoted : Unbraced (token IsQuoted) := unbraced_token <| by
  rintro _ ⟨text, rfl⟩
  rfl

theorem unbraced_name : Unbraced name := unbraced_token <| by
  rintro _ (⟨text, rfl⟩ | ⟨text, rfl⟩) <;> rfl

theorem unbraced_text : Unbraced text := unbraced_token <| by
  rintro _ (⟨text, rfl⟩ | ⟨text, rfl⟩) <;> rfl

theorem unbraced_numeral : Unbraced (token IsNumeral) := unbraced_token <| by
  rintro _ ⟨text, rfl⟩
  rfl

theorem unbraced_literalToken : Unbraced (token IsLiteral) := unbraced_token <| by
  rintro _ ((⟨text, rfl⟩ | ⟨text, rfl⟩) | ⟨text, rfl⟩ | ⟨text, rfl⟩ | ⟨text, rfl⟩) <;> rfl

theorem unbraced_argument : Unbraced (token IsArgument) := unbraced_token <| by
  rintro _ (⟨text, rfl⟩ | ⟨text, rfl⟩ | ⟨text, rfl⟩ | rfl) <;> rfl

theorem unbraced_relation : Unbraced (token IsRelation) := unbraced_token <| by
  rintro _ (rfl | rfl | rfl | rfl) <;> rfl

/-- A keyword is a word, and so without braces. -/
theorem unbraced_keyword (k : Keyword) : Unbraced (keyword k) := unbraced_token <| by
  intro t ht
  cases t with
  | symbol s => contradiction
  | _ => rfl

/-- Symbols other than braces are without braces. -/
theorem unbraced_symbol {s : Symbol} (h : (Token.symbol s).braces = []) :
    Unbraced (symbol s) := unbraced_token <| by
  rintro _ rfl
  exact h

/-- A table's name is without braces. -/
theorem unbraced_qualified : Unbraced qualified :=
  unbraced_name.seq (((unbraced_symbol rfl).seq (unbraced_name.seq unbraced_empty)).optional.seq
    unbraced_empty)

/-- Names behind separators are without braces if the separator is. -/
theorem unbraced_names {s : Symbol} (h : (Token.symbol s).braces = []) :
    Unbraced (star (sequence [symbol s, name])) :=
  ((unbraced_symbol h).seq (unbraced_name.seq unbraced_empty)).star

/-- Fields in parentheses are without braces. -/
theorem unbraced_fieldList : Unbraced fieldList :=
  (unbraced_symbol rfl).seq ((unbraced_symbol rfl).seq (unbraced_name.seq ((unbraced_names rfl).seq
    ((unbraced_symbol rfl).seq unbraced_empty))))

theorem unbraced_path : Unbraced path :=
  unbraced_name.seq ((unbraced_names rfl).seq (unbraced_fieldList.optional.seq unbraced_empty))

/-- A literal is without braces, in each of its three forms. -/
theorem unbraced_literal : Unbraced literal := by
  refine Marks.choice fun a ha => ?_
  simp only [List.mem_cons, List.not_mem_nil, or_false] at ha
  rcases ha with rfl | rfl | rfl
  · exact unbraced_literalToken
  · exact (unbraced_symbol rfl).seq (unbraced_numeral.seq unbraced_empty)
  · exact unbraced_word.seq (unbraced_word.star.seq unbraced_empty)

/-- The value of a setting is without braces, a reference or a literal. -/
theorem unbraced_value (key : String) : Unbraced (value key) := by
  unfold value
  split
  · exact unbraced_relation.seq (unbraced_path.seq unbraced_empty)
  · exact unbraced_literal

/-- The words of a key are without braces. -/
theorem unbraced_words (texts : List String) : Unbraced (words texts) := by
  rintro ts rest ⟨taken, rfl, h⟩
  refine ⟨taken, rfl, ?_⟩
  have hall : ∀ t ∈ taken, t.token.braces = [] := by
    intro t ht
    have hmem : t.token ∈ texts.map Token.identifier := h ▸ List.mem_map_of_mem ht
    obtain ⟨text, -, htext⟩ := List.mem_map.1 hmem
    rw [← htext]
    rfl
  exact List.flatMap_eq_nil_iff.2 hall

/-- A setting is without braces. -/
theorem unbraced_setting : Unbraced setting := by
  rintro ts rest ⟨texts, mid, -, h₁, h₂⟩
  have hvalue : Unbraced (optional (sequence [symbol .colon, value (key texts)])) :=
    ((unbraced_symbol rfl).seq ((unbraced_value _).seq unbraced_empty)).optional
  exact (unbraced_words texts).seq hvalue ⟨mid, h₁, h₂⟩

/-- A list of settings stands between brackets, not braces. -/
theorem unbraced_settings : Unbraced settings :=
  (unbraced_symbol rfl).seq (((unbraced_setting.seq ((unbraced_symbol rfl).seq
    unbraced_empty)).star).seq (unbraced_setting.optional.seq ((unbraced_symbol rfl).seq
      unbraced_empty)))

/-- The brackets of an array are no braces. -/
theorem unbraced_arraySuffix : Unbraced arraySuffix := by
  refine Marks.choice fun a ha => ?_
  simp only [List.mem_cons, List.not_mem_nil, or_false] at ha
  rcases ha with rfl | rfl
  · exact (unbraced_symbol rfl).seq ((unbraced_symbol rfl).seq unbraced_empty)
  · exact unbraced_empty.ahead

/-- A type that begins with a word is without braces. -/
theorem unbraced_typeExpression : Unbraced typeExpression :=
  unbraced_word.seq (((unbraced_symbol rfl).seq (unbraced_name.seq unbraced_empty)).optional.seq
    (((unbraced_symbol rfl).seq (unbraced_argument.star.seq ((unbraced_symbol rfl).seq
      unbraced_empty))).optional.seq (unbraced_arraySuffix.seq unbraced_empty)))

/-- A type is without braces, if there is one. -/
theorem unbraced_fieldType (line : Nat) : Unbraced (fieldType line) := by
  refine Marks.choice fun a ha => ?_
  simp only [List.mem_cons, List.not_mem_nil, or_false] at ha
  rcases ha with rfl | rfl
  · refine Marks.ahead (Marks.choice fun a ha => ?_)
    simp only [List.mem_cons, List.not_mem_nil, or_false] at ha
    rcases ha with rfl | rfl
    · exact unbraced_quoted
    · exact unbraced_typeExpression
  · exact unbraced_empty.ahead

/-- A field is without braces, as its name, its type and its settings are. -/
theorem unbraced_field : Unbraced field := by
  rintro ts rest ⟨t, mid, rfl, ht, h⟩
  exact unbraced_name.seq ((unbraced_fieldType _).seq (unbraced_settings.optional.seq
    unbraced_empty)) ⟨mid, ⟨t, rfl, ht⟩, h⟩

/-! ## Blocks -/

/-- Inside of a block, braces come in pairs. -/
theorem balanced_inside : Marks Balanced inside := by
  intro ts rest h
  induction h with
  | nil => exact ⟨[], rfl, balanced_nil⟩
  | @other t _ _ ho hc _ ih =>
    obtain ⟨taken, rfl, htaken⟩ := ih
    exact ⟨t :: taken, rfl, by rwa [braces_cons, Token.braces_eq_nil ho hc]⟩
  | @block t u _ _ _ ht _ hu _ ih₁ ih₂ =>
    obtain ⟨xs, rfl, hxs⟩ := ih₁
    obtain ⟨ys, rfl, hys⟩ := ih₂
    refine ⟨t :: xs ++ u :: ys, by simp, ?_⟩
    have h := hxs.enclosed.append hys
    simpa [ht, hu, Token.braces] using h

/-- What is without braces is balanced. -/
theorem balanced_of_unbraced {a : Phrase} (h : Unbraced a) : Marks Balanced a :=
  Marks.mono h fun _ he => he ▸ balanced_nil

/-- A block between braces is one pair around what is inside. -/
theorem balanced_enclosed {a : Phrase} (h : Marks Balanced a) :
    Marks Balanced (sequence [symbol .openBrace, a, symbol .closeBrace]) := by
  rintro ts _ ⟨_, ⟨t, rfl, ht⟩, mid, h₁, _, ⟨u, rfl, hu⟩, rfl⟩
  obtain ⟨xs, rfl, hxs⟩ := h h₁
  refine ⟨t :: xs ++ [u], by simp, ?_⟩
  simpa [ht, hu, Token.braces] using hxs.enclosed

/-- An item opens and closes braces in pairs. -/
theorem balanced_item : Marks Balanced item := by
  refine Marks.choice fun a ha => ?_
  simp only [List.mem_cons, List.not_mem_nil, or_false] at ha
  rcases ha with rfl | rfl | rfl | rfl
  · exact balanced_of_unbraced ((unbraced_keyword _).seq ((unbraced_symbol rfl).seq
      (unbraced_text.seq unbraced_empty)))
  · exact Marks.seq composes_balanced (balanced_of_unbraced (unbraced_keyword _))
      (balanced_enclosed (balanced_of_unbraced unbraced_text))
  · exact Marks.seq composes_balanced (balanced_of_unbraced (unbraced_keyword _))
      (Marks.seq composes_balanced (balanced_enclosed balanced_inside) (.empty composes_balanced))
  · exact Marks.ahead (balanced_of_unbraced unbraced_field)

end Rule

/-! ## Tables -/

namespace TablePlace.IsRead

open SchemaDiagram.Parser Grammar

variable {p : TablePlace} {rest : List Located}

/-- No brace stands before the block. -/
theorem braces_head (h : p.IsRead rest) : braces p.head = [] := by
  obtain ⟨q, mid₁, h₁, h₂⟩ := bind_eq_ok.1 h.head
  obtain ⟨aliasName, mid₂, h₃, h₄⟩ := bind_eq_ok.1 h₂
  obtain ⟨ss, mid₃, h₅, h₆⟩ := bind_eq_ok.1 h₄
  cases h₆
  have hhead : Rule.Unbraced (Phrase.seq Rule.qualified (Phrase.seq
      (optional (sequence [Phrase.keyword .as, Rule.name])) (optional Rule.settings))) :=
    Rule.unbraced_qualified.seq (((Rule.unbraced_keyword _).seq (Rule.unbraced_name.seq
      Rule.unbraced_empty)).optional.seq Rule.unbraced_settings.optional)
  obtain ⟨taken, htaken, hnone⟩ :=
    hhead ⟨mid₁, derives_qualifiedName h₁, mid₂, derives_tableAlias h₃, derives_settings h₅⟩
  rwa [List.append_cancel_right htaken]

/-- The braces between those of a table are balanced. -/
theorem balanced_body (h : p.IsRead rest) : Balanced (braces p.body) := by
  have hruns : ∀ {ts rest parts}, Runs (tableItem p.table.schemaName p.table.name) ts parts rest →
      Balanced (braces (parts.flatMap (·.1))) := by
    intro ts rest parts h
    induction h with
    | nil => exact balanced_nil
    | cons hitem _ ih =>
      obtain ⟨taken, htaken, hbalanced⟩ := Rule.balanced_item (derives_tableItem hitem)
      rw [List.append_cancel_right htaken, List.flatMap_cons, braces_append]
      exact hbalanced.append ih
  exact hruns h.items

end TablePlace.IsRead

end SchemaDiagram
