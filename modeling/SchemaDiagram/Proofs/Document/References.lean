import SchemaDiagram.Proofs.Document.Detached

/-!
# SchemaDiagram.Proofs.Document.References

A reference means the same wherever it is written.

Every accepted document can be written with all references on their own (`detach`), and then it
declares the same.

1. A list of references is a reference on its own for each of them, with the name of the list
   (`exists_detachList`).
2. What stays of a declaration and its references behind it declare what the declaration does
   (`Redeclares`), and a document is its declarations one after the other (`exists_detach`).
-/

namespace SchemaDiagram.Grammar

open SchemaDiagram.Parser
open Document (Declarations Reference)

/-! ## Lists of references -/

/-- References up to a closing brace begin with a name or with the brace. -/
theorem fresh_of_repeatUntil_reference {n : Option String} {ts rest : List Located}
    {rs : List Reference}
    (h : repeatUntil (begins .closeBrace) ((reference n).beforeEnd .closeReferences)
      ((advances_reference n).beforeEnd _) ts = .ok (rs, rest)) : Fresh ts := by
  obtain ⟨hstar, hclose⟩ : Phrase.star Rule.reference ts rest ∧ begins .closeBrace rest = true :=
    derives_repeatUntil h fun _ _ _ _ h => derives_beforeEnd h derives_reference
  cases hstar with
  | nil =>
    obtain ⟨t, after, rfl, ht⟩ := begins_eq_true.1 hclose
    exact fresh_cons.2 (.inr ht)
  | cons h _ =>
    obtain ⟨t, after, rfl, ht⟩ := exists_name_of_path h.choose_spec.1
    exact fresh_cons.2 (.inl ht)

/-- A reference in front of what is no part of it is a reference on its own. -/
theorem exists_taken_reference {n : Option String} {ts rest : List Located} {r : Reference}
    (h : reference n ts = .ok (r, rest)) (hfresh : Fresh rest) :
    ∃ body, ts = body ++ rest ∧ reference n body = .ok (r, []) := by
  have hends : Ends Fresh (reference n) :=
    ends_reference (fun _ h => h.stops (by decide)) (fun _ h => h.stops (by decide)) n
  exact hends.exists_taken (by simp [Fresh]) h hfresh

/-- An optional name. -/
theorem exists_taken_name {n : Option String} {ts rest : List Located}
    (h : take? Token.name? ts = .ok (n, rest)) :
    ∃ names, ts = names ++ rest ∧ names.map (·.token.name?) = n.toList.map some := by
  rcases begins_or_stops (fun t => t.name?.isSome) ts with ⟨t, after, rfl, ht⟩ | hs
  · obtain ⟨m, hm⟩ := Option.isSome_iff_exists.1 ht
    rw [take?_of_some hm] at h
    cases h
    exact ⟨[t], rfl, by simp [hm]⟩
  · rw [take?_of_stops hs] at h
    cases h
    exact ⟨[], rfl, rfl⟩

/-- The references of a list, each with the name of the list. -/
theorem exists_detachList {n : Option String} {names : List Located}
    (hnames : names.map (·.token.name?) = n.toList.map some) {ts rest : List Located}
    {rs : List Reference}
    (h : repeatUntil (begins .closeBrace) ((reference n).beforeEnd .closeReferences)
      ((advances_reference n).beforeEnd _) ts = .ok (rs, rest)) :
    ∃ bodies, repeatUntil (begins .closeBrace) ((taken (reference n)).beforeEnd .closeReferences)
        ((advances_reference n).taken.beforeEnd _) ts = .ok (bodies, rest) ∧
      DeclareReferences (bodies.flatMap fun body =>
        referenceTokens (names.map (·.token)) (body.2.map (·.token))) rs := by
  fun_induction repeatUntil (begins .closeBrace) ((reference n).beforeEnd .closeReferences)
    ((advances_reference n).beforeEnd _) ts generalizing rs with
  | case1 ts hs =>
    cases h
    exact ⟨[], repeatUntil_of_stop hs, declareReferences_nil⟩
  | case2 => contradiction
  | case3 => contradiction
  | case4 ts hgo r mid hr _ rs' after hmore ih =>
    cases h
    rw [Bool.not_eq_true] at hgo
    obtain ⟨bodies, hbodies, hrefs⟩ := ih hmore
    cases ts with
    | nil => contradiction
    | cons t ts =>
      obtain ⟨body, heq, hbody⟩ := exists_taken_reference hr (fresh_of_repeatUntil_reference hmore)
      have htaken : (taken (reference n)).beforeEnd .closeReferences (t :: ts) =
          .ok ((r, body), mid) := by
        show taken (reference n) (t :: ts) = _
        have hr' : reference n (t :: ts) = .ok (r, mid) := hr
        rw [heq] at hr' ⊢
        exact taken_of_append body hr'
      refine ⟨(r, body) :: bodies, ?_, ?_⟩
      · exact (repeatUntil_of_ok hgo htaken).trans (bind_of_ok hbodies)
      · exact (declareReferences_of_reference hnames hbody).append hrefs

/-- A declaration that stays as it is. -/
theorem exists_taken_declaration {ts rest : List Located} {d : Declarations}
    (h : declaration ts = .ok (d, rest)) (hfresh : Fresh rest) :
    ∃ tokens, ts = tokens ++ rest ∧ declarations tokens = .ok (d, []) := by
  obtain ⟨tokens, rfl, htokens⟩ := ends_declaration.exists_taken (by simp [Fresh]) h hfresh
  exact ⟨tokens, rfl, declarations_of_declaration htokens⟩

/-! ## Declarations -/

/-- What stays of a declaration and its references behind it, at any positions, declare the same. -/
def Redeclares (x : Detached) (d : Declarations) : Prop :=
  ∀ references, references.map (·.token) = x.references →
    declarations (x.kept ++ references) = .ok (d, [])

/-- A declaration that stays as it is declares the same. -/
theorem redeclares_keep {tokens : List Located} {d : Declarations}
    (h : declarations tokens = .ok (d, [])) : Redeclares (.keep tokens) d := by
  intro references hreferences
  rw [List.map_eq_nil_iff.1 hreferences]
  rwa [← List.append_nil tokens] at h

/-- References that are declared on their own stay if they stand behind a colon; of a list of them,
each one is declared for itself. -/
theorem exists_detachReferences {keyword : Located} {ts rest : List Located} {rs : List Reference}
    (hkeyword : keyword.token.isKeyword .ref = true) (h : references ts = .ok (rs, rest))
    (hfresh : Fresh rest) : ∃ x, detachReferences [keyword] ts = .ok (x, rest) ∧
      Redeclares x { references := rs } := by
  have hdeclaration : declaration (keyword :: ts) = .ok ({ references := rs }, rest) := by
    rw [declaration, accept_then_of_stops (stops_isKeyword hkeyword (by decide)),
      accept_then_of_true hkeyword, bind_of_ok h]
    rfl
  obtain ⟨n, mid, hn, hbody⟩ := bind_eq_ok.1 h
  obtain ⟨names, rfl, hnames⟩ := exists_taken_name hn
  rcases begins_or_stops (is .colon) mid with ⟨colon, mid, rfl, hcolon⟩ | hs
  · rw [accept_then_of_true hcolon] at hbody
    obtain ⟨r, mid', hr, hpure⟩ := bind_eq_ok.1 hbody
    obtain ⟨rfl, rfl⟩ := pure_eq_ok.1 hpure
    obtain ⟨body, rfl, -⟩ := exists_taken_reference hr hfresh
    have hdetach : detachReferences [keyword] (names ++ colon :: (body ++ mid')) =
        .ok (.keep ([keyword] ++ names ++ [colon] ++ body), mid') :=
      (bind_of_ok (taken_of_append names hn)).trans
        ((bind_of_ok (taken_of_append [colon] (accept_of_true hcolon))).trans
          (bind_of_ok (taken_of_append body hr)))
    refine ⟨_, hdetach, redeclares_keep ?_⟩
    obtain ⟨tokens, heq, htokens⟩ := exists_taken_declaration hdeclaration hfresh
    obtain rfl : tokens = [keyword] ++ names ++ [colon] ++ body :=
      List.append_cancel_right (heq.symm.trans (by simp))
    exact htokens
  · rw [accept_then_of_stops hs] at hbody
    obtain ⟨⟨⟩, mid₁, hopen, hbody⟩ := bind_eq_ok.1 hbody
    obtain ⟨rs', mid₂, hlist, hbody⟩ := bind_eq_ok.1 hbody
    obtain ⟨b, mid₃, hclose, hpure⟩ := bind_eq_ok.1 hbody
    obtain ⟨rfl, rfl⟩ := pure_eq_ok.1 hpure
    obtain ⟨bodies, hbodies, hrefs⟩ := exists_detachList hnames hlist
    have hmany : manyUntil .closeBrace ((taken (reference n)).beforeEnd .closeReferences)
        ((advances_reference n).taken.beforeEnd _) mid₁ = .ok (bodies, mid₃) :=
      (bind_of_ok hbodies).trans (bind_of_ok hclose)
    exact ⟨_, (bind_of_ok (taken_of_append names hn)).trans
      ((bind_of_ok (taken_of_append [] (accept_of_stops hs))).trans
        ((bind_of_ok hopen).trans (bind_of_ok hmany))), hrefs⟩

/-- Every declaration can be parted from its references: a table from those in its settings, a list
from its items, and the others stay as they are. -/
theorem exists_detachDeclaration {ts rest : List Located} {d : Declarations}
    (h : declaration ts = .ok (d, rest)) (hfresh : Fresh rest) :
    ∃ x, detachDeclaration ts = .ok (x, rest) ∧ Redeclares x d := by
  cases ts with
  | nil => exact absurd (advances_declaration h) (Nat.not_lt_zero _)
  | cons t ts =>
    obtain ⟨tokens, heq, htokens⟩ := exists_taken_declaration h hfresh
    by_cases htable : t.token.isKeyword .table = true
    · rw [declaration, accept_then_of_true htable] at h
      obtain ⟨x, hx, hrefs, hkept, hnone⟩ := exists_detachTable h
      have hdetach : detachDeclaration (t :: ts) = .ok (⟨t :: x.kept, x.references⟩, rest) := by
        rw [detachDeclaration, if_pos htable]
        exact bind_of_ok hx
      refine ⟨_, hdetach, fun references hreferences => ?_⟩
      have htable' : declaration (t :: x.kept) = .ok ({ tables := d.tables }, []) :=
        (accept_then_of_true htable).trans hkept
      rw [declarations_append (declarations_of_declaration htable') (hrefs _ hreferences)]
      obtain ⟨tables, rs, enumerations⟩ := d
      obtain rfl : enumerations = [] := hnone
      show Except.ok (Declarations.append _ _, _) = _
      simp [Declarations.append]
    · rw [Bool.not_eq_true] at htable
      by_cases href : t.token.isKeyword .ref = true
      · rw [declaration, accept_then_of_stops (stops_cons.2 htable), accept_then_of_true href] at h
        obtain ⟨rs, mid, hrs, hpure⟩ := bind_eq_ok.1 h
        obtain ⟨rfl, rfl⟩ := pure_eq_ok.1 hpure
        obtain ⟨x, hx, hredeclares⟩ := exists_detachReferences href hrs hfresh
        refine ⟨x, ?_, hredeclares⟩
        rw [detachDeclaration, if_neg (by simp [htable]), if_pos href]
        exact hx
      · refine ⟨.keep tokens, ?_, redeclares_keep htokens⟩
        rw [detachDeclaration, if_neg (by simp [htable]), if_neg href]
        rw [heq] at h ⊢
        exact bind_of_ok (taken_of_append tokens h)

/-! ## Documents -/

/-- All declarations can be parted from their references, and however these are written behind them,
the same is declared. -/
theorem exists_detach {ts : List Located} {ds : List Declarations}
    (h : repeatUntil List.isEmpty declaration advances_declaration ts = .ok (ds, [])) :
    ∃ xs, detach ts = .ok (xs, []) ∧
      ∀ ts', Written xs ts' → declarations ts' = .ok (.concat ds, []) := by
  unfold detach
  fun_induction repeatUntil List.isEmpty declaration advances_declaration ts generalizing ds with
  | case1 ts hs =>
    cases h
    refine ⟨[], repeatUntil_of_stop hs, ?_⟩
    rintro _ ⟨⟩
    exact bind_of_ok (repeatUntil_of_stop rfl)
  | case2 => contradiction
  | case3 => contradiction
  | case4 ts hgo d mid hd _ ds' after hmore ih =>
    cases h
    rw [Bool.not_eq_true] at hgo
    obtain ⟨xs, hxs, hwritten⟩ := ih hmore
    have hmid : declarations mid = .ok (.concat ds', []) := bind_of_ok hmore
    obtain ⟨x, hx, hredeclares⟩ :=
      exists_detachDeclaration hd (fresh_of_document (derives_declarations hmid).1)
    refine ⟨x :: xs, ?_, ?_⟩
    · rw [repeatUntil_of_ok hgo hx, bind_of_ok hxs]
      rfl
    · rintro _ (_ | ⟨hreferences, hrest⟩)
      exact declarations_append (hredeclares _ hreferences) (hwritten _ hrest)

/-- What is left of declarations can be written. -/
theorem exists_written (xs : List Detached) : ∃ ts, Written xs ts := by
  induction xs with
  | nil => exact ⟨[], .nil⟩
  | cons x xs ih =>
    obtain ⟨ts, hts⟩ := ih
    have hplaced : (x.references.map (Located.mk · default)).map (·.token) = x.references := by
      simp [Function.comp_def]
    exact ⟨_, .cons hplaced hts⟩

end SchemaDiagram.Grammar

namespace SchemaDiagram.Document

open Grammar SchemaDiagram.Parser

/-- **References mean the same wherever they are written**: an accepted list of tokens can be written
with all its references on their own, and however that is laid out, it is accepted and declares the
same tables, references and enumerations in the same order.  The grouping by schemas goes by these
alone. -/
theorem ofTokens_of_detach {ts : List Located} {finish : Position} {d : Declarations}
    (h : Declarations.ofTokens ts finish = .ok d) :
    ∃ xs, detach ts = .ok (xs, []) ∧ (∃ ts', Written xs ts') ∧
      ∀ ts' ts'', Written xs ts' → SameShape ts' ts'' →
        ∀ finish', Declarations.ofTokens ts'' finish' = .ok d := by
  obtain ⟨rest, hd⟩ : ∃ rest, declarations ts = .ok (d, rest) := by
    unfold Declarations.ofTokens at h
    split at h
    · contradiction
    · rename_i hd
      cases h
      exact ⟨_, hd⟩
  obtain ⟨-, rfl⟩ := derives_declarations hd
  obtain ⟨ds, mid, hds, hpure⟩ := bind_eq_ok.1 hd
  obtain ⟨rfl, rfl⟩ := pure_eq_ok.1 hpure
  obtain ⟨xs, hxs, hwritten⟩ := exists_detach hds
  refine ⟨xs, hxs, exists_written xs, fun ts' ts'' hts' hshape finish' => ?_⟩
  obtain ⟨rest, hok, hrest⟩ := uniform_declarations.exists_ok hshape (hwritten ts' hts')
  rw [Declarations.ofTokens, hok]

/-- References from two fields, and a list of references with a name. -/
def nestedText : String :=
  "Table s.t \x7b a int [pk, ref: > u.b] c [REF: - s.v.(x, y)] \x7d
  Ref n \x7b a.b < c.d e.f <> g \x7d"

/-- The same references on their own. -/
def detachedText : String :=
  "Table s.t \x7b a int [pk, ref] c [REF] \x7d
  Ref: \"s\".\"t\".\"a\" > u.b
  Ref: \"s\".\"t\".\"c\" - s.v.(x, y)
  Ref n: a.b < c.d
  Ref n: e.f <> g"

/-- What both texts declare. -/
def twoFields : Declarations where
  tables := [{
    name := "t"
    schemaName := some "s"
    fields := [{ name := "a", type := .expression "int" none, isPrimaryKey := true },
      { name := "c", type := .absent }] }]
  references := [.of none ⟨some "s", "t", ["a"]⟩ .manyToOne ⟨none, "u", ["b"]⟩,
    .of none ⟨some "s", "t", ["c"]⟩ .oneToOne ⟨some "s", "v", ["x", "y"]⟩,
    .of (some "n") ⟨none, "a", ["b"]⟩ .oneToMany ⟨none, "c", ["d"]⟩,
    .of (some "n") ⟨none, "e", ["f"]⟩ .manyToMany ⟨none, "g", []⟩]

/-- The one text becomes the other, token by token. -/
theorem ofTokens_of_detach_nestedText :
    Declarations.ofTokens (Lexing.of nestedText).tokens .start = .ok twoFields ∧
    (∃ xs, detach (Lexing.of nestedText).tokens = .ok (xs, []) ∧ (∃ ts', Written xs ts') ∧
      ∀ ts' ts'', Written xs ts' → SameShape ts' ts'' →
        ∀ finish', Declarations.ofTokens ts'' finish' = .ok twoFields) ∧
    (detach (Lexing.of nestedText).tokens).toOption.map
        (·.1.flatMap fun x => x.kept.map (·.token) ++ x.references) =
      some ((Lexing.of detachedText).tokens.map (·.token)) := by
  have h : Declarations.ofTokens (Lexing.of nestedText).tokens .start = .ok twoFields := by
    decide +kernel
  exact ⟨h, ofTokens_of_detach h, by decide +kernel⟩

end SchemaDiagram.Document
