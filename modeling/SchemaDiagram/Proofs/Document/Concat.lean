import SchemaDiagram.Proofs.Document.Grouping
import SchemaDiagram.Proofs.Document.Shape
import SchemaDiagram.Proofs.Grammar.Ends
import SchemaDiagram.Proofs.Token.Concat

/-!
# SchemaDiagram.Proofs.Document.Concat

Two documents one below the other.

1. The tokens are those of both texts (`Lexing.exists_tokens_append`), and that the second ones stand
   further below does not matter (`Grammar.uniform_declarations`).
2. The last declaration of the first text ends before the first of the second
   (`Grammar.ends_declaration`), so the declarations are those of both (`Declares.append`).
3. Grouping by schema goes through each schema on its own (`inSchema_ofDeclarations`).
-/

namespace SchemaDiagram

/-! ## Declarations one behind the other -/

namespace Document.Declarations

@[simp] theorem empty_append (d : Declarations) : ({} : Declarations) ++ d = d := rfl

@[simp] theorem append_empty (d : Declarations) : d ++ ({} : Declarations) = d := by
  cases d
  show Declarations.append _ _ = _
  simp [Declarations.append]

/-- Declarations may be grouped at will. -/
theorem append_assoc (a b c : Declarations) : a ++ b ++ c = a ++ (b ++ c) := by
  show Declarations.append (Declarations.append _ _) _ = Declarations.append _ (Declarations.append _ _)
  simp [Declarations.append]

/-- Declarations taken together part by part are taken together. -/
theorem concat_append (xs ys : List Declarations) : concat (xs ++ ys) = concat xs ++ concat ys := by
  induction xs with
  | nil => rfl
  | cons x xs ih => rw [List.cons_append, concat, concat, ih, append_assoc]

/-- What two texts declare in a schema is what the one does and what the other does. -/
theorem inSchema_append (a b : Declarations) (name : String) :
    (a ++ b).inSchema name = a.inSchema name ++ b.inSchema name := by
  show inSchema _ _ = Declarations.append _ _
  simp [inSchema, Declarations.append]

/-- A schema that no declaration belongs to has none. -/
theorem inSchema_eq_empty {d : Declarations} {name : String} (h : name ∉ d.schemaNames) :
    d.inSchema name = {} := by
  rw [mem_schemaNames, not_or, not_or, not_or] at h
  obtain ⟨-, htables, hreferences, henumerations⟩ := h
  simp only [inSchema, Declarations.mk.injEq, List.filter_eq_nil_iff, beq_iff_eq]
  exact ⟨fun t ht he => htables ⟨t, ht, he⟩, fun r hr he => hreferences ⟨r, hr, he⟩,
    fun e he heq => henumerations ⟨e, he, heq⟩⟩

end Document.Declarations

namespace Document

/-- The declarations of a document that belong to a schema; none if it has no such schema. -/
def inSchema (d : Document) (name : String) : Declarations :=
  match d.schemas.find? (·.name == name) with
  | some g => g.toDeclarations
  | none => {}

/-- A document has in each schema what is declared in it. -/
theorem inSchema_ofDeclarations (d : Declarations) (name : String) :
    (ofDeclarations d).inSchema name = d.inSchema name := by
  unfold inSchema
  split
  · rename_i g hg
    have hname := List.find?_some hg
    rw [beq_iff_eq] at hname
    subst hname
    exact d.eq_inSchema_of_mem_groups (List.mem_of_find?_eq_some hg)
  · rename_i hnone
    have hname : name ∉ d.schemaNames := by
      rw [← d.map_name_groups, List.mem_map]
      rintro ⟨g, hg, rfl⟩
      exact List.find?_eq_none.1 hnone g hg (beq_self_eq_true _)
    exact (Declarations.inSchema_eq_empty hname).symm

end Document

/-! ## Declarations without a meaning -/

namespace Rule

open Phrase

/-- A declaration that means nothing for the diagram. -/
def remark : Phrase :=
  sequence [choice [keyword .project, keyword .tableGroup, keyword .note], skipped]

end Rule

namespace Grammar

open SchemaDiagram.Parser Phrase Document

/-- What a declaration does where tokens are left or another one follows does not depend on them. -/
theorem declaration_append {ts mid more : List Located} {d : Declarations}
    (h : declaration ts = .ok (d, mid)) (hfresh : Fresh more) :
    declaration (ts ++ more) = .ok (d, mid ++ more) := by
  cases mid with
  | nil =>
    obtain ⟨taken, rfl, htaken⟩ := ends_declaration h (by simp [Fresh])
    rw [List.append_nil]
    exact htaken hfresh
  | cons t mid =>
    obtain ⟨taken, rfl, htaken⟩ := (local_declaration ts).ok h
    rw [List.append_assoc]
    exact htaken _ (alike_never rfl)

/-- A declaration takes a token, so there is one. -/
theorem isEmpty_of_declaration {ts rest : List Located} {d : Declarations}
    (h : declaration ts = .ok (d, rest)) : ts.isEmpty = false := by
  cases ts with
  | nil => exact absurd (advances_declaration h) (Nat.not_lt_zero _)
  | cons t ts => rfl

/-- A document begins with a keyword, or is empty. -/
theorem fresh_of_document {ts : List Located} (h : Rule.document ts []) : Fresh ts := by
  cases h with
  | nil => simp [Fresh]
  | cons h _ =>
    obtain ⟨t, after, k, rfl, ht⟩ := exists_keyword_of_declaration h
    exact fresh_cons.2 (.inl (isName_of_isKeyword ht))

/-- The declarations of two lists of tokens are read one by one, where the second list begins as a
declaration may. -/
theorem repeatUntil_declaration_append {ts us : List Located} {ds es : List Declarations}
    (hds : repeatUntil List.isEmpty declaration advances_declaration ts = .ok (ds, []))
    (hes : repeatUntil List.isEmpty declaration advances_declaration us = .ok (es, []))
    (hfresh : Fresh us) :
    repeatUntil List.isEmpty declaration advances_declaration (ts ++ us) = .ok (ds ++ es, []) := by
  fun_induction repeatUntil List.isEmpty declaration advances_declaration ts generalizing ds with
  | case1 ts hs =>
    cases h : ts with
    | nil => cases hds; exact hes
    | cons t ts => rw [h] at hs; contradiction
  | case2 => contradiction
  | case3 => contradiction
  | case4 ts hgo d mid hd _ ds' after hr ih =>
    cases hds
    have hboth := declaration_append hd hfresh
    rw [repeatUntil_of_ok (isEmpty_of_declaration hboth) hboth, bind_of_ok (ih hr)]
    rfl

/-- The declarations among the tokens of two documents are those of the one and of the other. -/
theorem declarations_append {ts us : List Located} {d e : Declarations}
    (hd : declarations ts = .ok (d, [])) (he : declarations us = .ok (e, [])) :
    declarations (ts ++ us) = .ok (d ++ e, []) := by
  have hfresh := fresh_of_document (derives_declarations he).1
  obtain ⟨ds, mid, hds, h⟩ := bind_eq_ok.1 hd
  cases h
  obtain ⟨es, mid, hes, h⟩ := bind_eq_ok.1 he
  cases h
  rw [declarations, bind_of_ok (repeatUntil_declaration_append hds hes hfresh),
    Declarations.concat_append]
  rfl

/-- Tokens that are moved down together keep their shape. -/
theorem sameShape_below (n : Nat) (ts : List Located) : SameShape ts (ts.map (.below n)) where
  tokens := by
    rw [List.map_map]
    rfl
  joined := by
    induction ts with
    | nil => rfl
    | cons t ts ih =>
      cases ts with
      | nil => rfl
      | cons u ts =>
        rw [List.map_cons] at ih
        rw [List.map_cons, List.map_cons, joined, joined, ih]
        simp [Located.below, Position.below]

/-- Declarations further below are the same. -/
theorem declarations_below {ts : List Located} {d : Declarations}
    (h : declarations ts = .ok (d, [])) (n : Nat) :
    declarations (ts.map (.below n)) = .ok (d, []) := by
  obtain ⟨rest, hok, hrest⟩ := uniform_declarations.exists_ok (sameShape_below n ts) h
  rw [hok, Tokenwise.nil hrest]

/-- Behind the keyword of a declaration that means nothing, that declaration is passed over. -/
theorem declaration_of_isSkipped {k : Located} {ts : List Located} (hk : isSkipped k.token = true) :
    declaration (k :: ts) = (do skipped; return ({} : Declarations)) ts := by
  have hstops {j : Keyword} (hj : j = .table ∨ j = .ref ∨ j = .enum) :
      Stops (·.isKeyword j) (k :: ts) := by
    rcases isSkipped_iff.1 hk with h | h | h <;> rcases hj with rfl | rfl | rfl <;>
      exact stops_isKeyword h (by decide)
  rw [declaration, accept_then_of_stops (hstops (.inl rfl)),
    accept_then_of_stops (hstops (.inr (.inl rfl))),
    accept_then_of_stops (hstops (.inr (.inr rfl))), accept_then_of_true hk]

/-- A declaration that means nothing for the diagram declares nothing. -/
theorem declaration_eq_ok_skipped {k : Located} {ts rest : List Located} {d : Declarations}
    (hk : isSkipped k.token = true) :
    declaration (k :: ts) = .ok (d, rest) ↔ d = {} ∧ Rule.skipped ts rest := by
  rw [declaration_of_isSkipped hk]
  constructor
  · intro h
    obtain ⟨_, _, h₁, h₂⟩ := bind_eq_ok.1 h
    obtain ⟨rfl, rfl⟩ := pure_eq_ok.1 h₂
    exact ⟨rfl, derives_skipped h₁⟩
  · rintro ⟨rfl, h⟩
    obtain ⟨_, hok⟩ := takes_skipped h
    exact bind_of_ok hok

/-- A remark declares nothing. -/
theorem declaration_of_remark {ts rest : List Located} (h : Rule.remark ts rest) :
    declaration ts = .ok ({}, rest) := by
  obtain ⟨_, hkey, _, hskipped, rfl⟩ := h
  obtain ⟨t, k, rfl, ht, hk⟩ := exists_skippedKeyword hkey
  have hskip : isSkipped t.token = true := by
    rcases hk with rfl | rfl | rfl <;> simp [isSkipped, ht]
  exact (declaration_eq_ok_skipped hskip).2 ⟨rfl, hskipped⟩

/-- Remarks declare nothing, however many they are. -/
theorem declarations_of_remarks {ts : List Located} (h : star Rule.remark ts []) :
    declarations ts = .ok ({}, []) := by
  generalize hnil : ([] : List Located) = rest at h
  induction h with
  | nil => subst hnil; exact bind_of_ok (repeatUntil_of_stop rfl)
  | @cons ts mid _ h hstar ih =>
    subst hnil
    have hfirst := declaration_of_remark h
    obtain ⟨ds, after, hds, hconcat⟩ := bind_eq_ok.1 (ih rfl)
    rw [declarations, bind_of_ok ((repeatUntil_of_ok (isEmpty_of_declaration hfirst) hfirst).trans
      (bind_of_ok hds))]
    exact hconcat

end Grammar

/-! ## Documents -/

namespace Document

open Grammar SchemaDiagram.Parser Phrase

/-- The text is read without a fault, and its tokens are the declarations. -/
structure Declares (source : String) (d : Declarations) : Prop where
  fault : (Lexing.of source).fault = none
  declarations : declarations (Lexing.of source).tokens = .ok (d, [])

/-- A text that declares something is compiled to the document of its declarations. -/
theorem Declares.ofSource {source : String} {d : Declarations} (h : Declares source d) :
    ofSource source = .ok (ofDeclarations d) :=
  ofSource_of_ok h.fault h.declarations

/-- A text that holds a document has its declarations. -/
theorem exists_declares {source : String} {doc : SchemaDiagram.Document}
    (h : Document.ofSource source = .ok doc) : ∃ d, Declares source d ∧ doc = ofDeclarations d := by
  cases hfault : (Lexing.of source).fault with
  | some fault => simp [Document.ofSource, hfault] at h
  | none =>
    cases hd : Grammar.declarations (Lexing.of source).tokens with
    | error m =>
      rw [ofSource_of_error hfault hd] at h
      contradiction
    | ok r =>
      obtain ⟨d, rest⟩ := r
      obtain ⟨-, rfl⟩ := derives_declarations hd
      rw [ofSource_of_ok hfault hd] at h
      exact ⟨d, ⟨hfault, hd⟩, (Except.ok.inj h).symm⟩

/-- Two texts with a line feed between them have the declarations of the one and of the other. -/
theorem Declares.append {a b : String} {d e : Declarations} (ha : Declares a d)
    (hb : Declares b e) : Declares (a ++ "\n" ++ b) (d ++ e) := by
  obtain ⟨n, htokens, hfault⟩ := Lexing.exists_tokens_append ha.fault hb.fault
  refine ⟨hfault, ?_⟩
  rw [htokens]
  exact declarations_append ha.declarations (declarations_below hb.declarations n)

/-- A text of nothing but projects, groups of tables and notes. -/
structure IsRemarks (source : String) : Prop where
  fault : (Lexing.of source).fault = none
  tokens : star Rule.remark (Lexing.of source).tokens []

theorem IsRemarks.declares {source : String} (h : IsRemarks source) : Declares source {} :=
  ⟨h.fault, declarations_of_remarks h.tokens⟩

/-- **Documents compose**: two documents with a line feed between them are a document, which has in
each schema what the first has there and then what the second has.  A text of nothing but projects,
groups of tables and notes changes nothing between documents, before one or behind it. -/
theorem ofSource_append {a b : String} {d e : SchemaDiagram.Document}
    (ha : Document.ofSource a = .ok d) (hb : Document.ofSource b = .ok e) :
    (∃ both, Document.ofSource (a ++ "\n" ++ b) = .ok both ∧
      ∀ name, both.inSchema name = d.inSchema name ++ e.inSchema name) ∧
    ∀ remarks, IsRemarks remarks →
      Document.ofSource (a ++ "\n" ++ remarks ++ "\n" ++ b) = Document.ofSource (a ++ "\n" ++ b) ∧
      Document.ofSource (remarks ++ "\n" ++ a) = .ok d ∧
      Document.ofSource (a ++ "\n" ++ remarks) = .ok d := by
  obtain ⟨da, hda, rfl⟩ := exists_declares ha
  obtain ⟨db, hdb, rfl⟩ := exists_declares hb
  refine ⟨⟨_, (hda.append hdb).ofSource, fun name => ?_⟩, fun remarks hremarks => ?_⟩
  · rw [inSchema_ofDeclarations, inSchema_ofDeclarations, inSchema_ofDeclarations,
      Declarations.inSchema_append]
  · have hbetween := ((hda.append hremarks.declares).append hdb).ofSource
    have hbefore := (hremarks.declares.append hda).ofSource
    have hbehind := (hda.append hremarks.declares).ofSource
    rw [Declarations.append_empty] at hbetween hbehind
    rw [Declarations.empty_append] at hbefore
    exact ⟨hbetween.trans (hda.append hdb).ofSource.symm, hbefore, hbehind⟩

/-- A table behind which a comment is open, and a reference. -/
theorem ofSource_append_behind_comment :
    Document.ofSource "Table a \x7b\n\x7d // a" = .ok (ofDeclarations { tables := [{ name := "a" }] }) ∧
    Document.ofSource "Ref: a.x < b.y" = .ok (ofDeclarations
      { references := [.of none ⟨none, "a", ["x"]⟩ .oneToMany ⟨none, "b", ["y"]⟩] }) ∧
    (∃ both, Document.ofSource ("Table a \x7b\n\x7d // a" ++ "\n" ++ "Ref: a.x < b.y") = .ok both ∧
      ∀ name, both.inSchema name =
        (ofDeclarations { tables := [{ name := "a" }] }).inSchema name ++
          (ofDeclarations { references :=
            [.of none ⟨none, "a", ["x"]⟩ .oneToMany ⟨none, "b", ["y"]⟩] }).inSchema name) ∧
    ∀ remarks, IsRemarks remarks →
      Document.ofSource ("Table a \x7b\n\x7d // a" ++ "\n" ++ remarks ++ "\n" ++ "Ref: a.x < b.y") =
        Document.ofSource ("Table a \x7b\n\x7d // a" ++ "\n" ++ "Ref: a.x < b.y") ∧
      Document.ofSource (remarks ++ "\n" ++ "Table a \x7b\n\x7d // a") =
        .ok (ofDeclarations { tables := [{ name := "a" }] }) ∧
      Document.ofSource ("Table a \x7b\n\x7d // a" ++ "\n" ++ remarks) =
        .ok (ofDeclarations { tables := [{ name := "a" }] }) :=
  have ha : Document.ofSource "Table a \x7b\n\x7d // a" =
      .ok (ofDeclarations { tables := [{ name := "a" }] }) := by decide +kernel
  have hb : Document.ofSource "Ref: a.x < b.y" = .ok (ofDeclarations
      { references := [.of none ⟨none, "a", ["x"]⟩ .oneToMany ⟨none, "b", ["y"]⟩] }) := by
    decide +kernel
  ⟨ha, hb, ofSource_append ha hb⟩

end Document

end SchemaDiagram
