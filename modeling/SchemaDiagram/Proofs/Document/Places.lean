import SchemaDiagram.Proofs.Grammar.Complete
import SchemaDiagram.Proofs.Grammar.Locality
import SchemaDiagram.Proofs.Token.Piece

/-!
# SchemaDiagram.Proofs.Document.Places

Where the tables of a document are declared among its tokens.

`TablePlace` is a table with the tokens of its declaration, parted at its braces and into its items.
Every table of a document has its place (`exists_place`).  Behind the name of a table and behind that
of a field stands one of a few kinds of token (`TablePlace.IsRead.exists_name`,
`TablePlace.IsRead.exists_field`).
-/

namespace SchemaDiagram

namespace Parser

/-! ## Runs -/

/-- Values that a parser reads one after the other, each off the tokens that it takes. -/
inductive Runs (p : Parser α) : List Located → List (List Located × α) → List Located → Prop
  | nil {ts : List Located} : Runs p ts [] ts
  | cons {taken mid rest : List Located} {a : α} {parts : List (List Located × α)} :
      p (taken ++ mid) = .ok (a, mid) → Runs p mid parts rest →
      Runs p (taken ++ mid) ((taken, a) :: parts) rest

section

variable {p item : Parser α} {ts rest : List Located}

/-- What a run has read stands before what is left, in its order. -/
theorem Runs.eq_append {parts : List (List Located × α)} (h : Runs p ts parts rest) :
    ts = parts.flatMap (·.1) ++ rest := by
  induction h with
  | nil => rfl
  | cons _ _ ih => rw [List.flatMap_cons, List.append_assoc, ← ih]

/-- A run that is not empty reads a first value and goes on behind it. -/
theorem Runs.exists_of_cons {taken : List Located} {a : α} {parts : List (List Located × α)}
    (h : Runs p ts ((taken, a) :: parts) rest) :
    ∃ mid, ts = taken ++ mid ∧ p ts = .ok (a, mid) ∧ Runs p mid parts rest := by
  cases h with
  | cons ha hparts => exact ⟨_, rfl, ha, hparts⟩

/-- A run may be parted anywhere. -/
theorem Runs.exists_of_append {xs ys : List (List Located × α)} (h : Runs p ts (xs ++ ys) rest) :
    ∃ mid, Runs p ts xs mid ∧ Runs p mid ys rest := by
  induction xs generalizing ts with
  | nil => exact ⟨ts, .nil, h⟩
  | cons x xs ih =>
    cases h with
    | cons ha hparts =>
      obtain ⟨mid, hxs, hys⟩ := ih hparts
      exact ⟨mid, .cons ha hxs, hys⟩

/-- Every value of a run is read in front of those behind it. -/
theorem Runs.exists_of_mem {taken : List Located} {a : α} {parts : List (List Located × α)}
    (h : Runs p ts parts rest) (hmem : (taken, a) ∈ parts) :
    ∃ after, p (taken ++ after) = .ok (a, after) := by
  obtain ⟨xs, ys, rfl⟩ := List.append_of_mem hmem
  obtain ⟨mid, -, hruns⟩ := h.exists_of_append
  obtain ⟨after, rfl, ha, -⟩ := hruns.exists_of_cons
  exact ⟨after, ha⟩

/-- A repetition is a run. -/
theorem exists_runs_of_repeatUntil {stop : List Located → Bool} {hi : Advances item} {as : List α}
    (hp : Local p) (hitem : ∀ {ts r}, item ts = .ok r → p ts = .ok r)
    (h : repeatUntil stop item hi ts = .ok (as, rest)) :
    ∃ parts, Runs p ts parts rest ∧ parts.map (·.2) = as ∧ stop rest = true := by
  fun_induction repeatUntil stop item hi ts generalizing as with
  | case1 ts hs => cases h; exact ⟨[], .nil, rfl, hs⟩
  | case2 => contradiction
  | case3 => contradiction
  | case4 ts _ a mid ha _ as' after hr ih =>
    cases h
    obtain ⟨parts, hparts, hmap, hs⟩ := ih hr
    obtain ⟨taken, rfl, _⟩ := (hp ts).ok (hitem ha)
    exact ⟨(taken, a) :: parts, .cons (hitem ha) hparts, by rw [List.map_cons, hmap], hs⟩

/-- A body is a run up to its closing symbol. -/
theorem exists_runs_of_manyUntil {close : Symbol} {hi : Advances item} {as : List α}
    (hp : Local p) (hitem : ∀ {ts r}, item ts = .ok r → p ts = .ok r)
    (h : manyUntil close item hi ts = .ok (as, rest)) :
    ∃ parts t, Runs p ts parts (t :: rest) ∧ parts.map (·.2) = as ∧ t.token = .symbol close := by
  obtain ⟨as', mid, h₁, h₂⟩ := bind_eq_ok.1 h
  obtain ⟨parts, hparts, hmap, hs⟩ := exists_runs_of_repeatUntil hp hitem h₁
  obtain ⟨t, after, rfl, ht⟩ := begins_eq_true.1 hs
  rw [bind_of_ok (accept_of_true (is_eq_true.2 ht))] at h₂
  cases h₂
  exact ⟨parts, t, hparts, hmap, ht⟩

end

end Parser

/-! ## Places -/

/-- A table and the tokens of its declaration: the keyword, what stands between the keyword and the
block, the braces of the block, and the items between them with the tokens of each. -/
structure TablePlace where
  table : Document.Table
  keyword : Located
  head : List Located
  opening : Located
  items : List (List Located × Grammar.TableItem)
  closing : Located

/-- What stands between the keyword of a table and its block: the table is named there. -/
def Grammar.tableHead : Parser (Option String × String) := do
  let name ← qualifiedName .tableName
  let _ ← tableAlias
  let _ ← settings
  return name

namespace TablePlace

/-- The tokens between the braces. -/
def body (p : TablePlace) : List Located := p.items.flatMap (·.1)

/-- All tokens of the declaration. -/
def tokens (p : TablePlace) : List Located :=
  p.keyword :: (p.head ++ p.opening :: (p.body ++ [p.closing]))

/-- A field of the table that a token names. -/
def HasField (p : TablePlace) (t : Located) (f : Document.Field) : Prop :=
  ∃ more references, (t :: more, .field f references) ∈ p.items

/-- The tokens of a table are read as the table, in front of other tokens. -/
structure IsRead (p : TablePlace) (rest : List Located) : Prop where
  keyword : p.keyword.token.isKeyword .table = true
  head : Grammar.tableHead (p.head ++ p.opening :: (p.body ++ p.closing :: rest)) =
    .ok ((p.table.schemaName, p.table.name), p.opening :: (p.body ++ p.closing :: rest))
  opening : p.opening.token = .symbol .openBrace
  items : Parser.Runs (Grammar.tableItem p.table.schemaName p.table.name)
    (p.body ++ p.closing :: rest) p.items (p.closing :: rest)
  fields : p.table.fields = p.items.filterMap (·.2.field?)
  closing : p.closing.token = .symbol .closeBrace

end TablePlace

/-- The tokens of a table follow whole declarations. -/
def TablePlace.IsIn (p : TablePlace) (ts : List Located) : Prop :=
  ∃ parts rest, Parser.Runs Grammar.declaration ts parts (p.tokens ++ rest) ∧ p.IsRead rest

/-! ## Every table has its place -/

namespace Grammar

open SchemaDiagram.Parser

/-- The head of a table is read locally, as its parts are. -/
theorem local_tableHead : Local tableHead :=
  (local_qualifiedName _).bind fun _ => local_tableAlias.bind fun _ => local_settings.map

/-- What is read where the end is refused is read where it is not. -/
theorem eq_ok_of_beforeEnd {p : Parser α} {e : Expected} {ts : List Located}
    {r : α × List Located} (h : p.beforeEnd e ts = .ok r) : p ts = .ok r := by
  unfold Parser.beforeEnd at h
  split at h
  · contradiction
  · exact h

/-- What is read behind the keyword of a table is one table at its place. -/
theorem exists_place_of_table {keyword : Located} {ts rest : List Located}
    {d : Document.Declarations} (hkeyword : keyword.token.isKeyword .table = true)
    (h : Grammar.table ts = .ok (d, rest)) :
    ∃ p : TablePlace, keyword :: ts = p.tokens ++ rest ∧ d.tables = [p.table] ∧ p.IsRead rest := by
  obtain ⟨⟨schemaName, tableName⟩, mid₁, h₁, h⟩ := bind_eq_ok.1 h
  obtain ⟨aliasName, mid₂, h₂, h⟩ := bind_eq_ok.1 h
  obtain ⟨ss, mid₃, h₃, h⟩ := bind_eq_ok.1 h
  obtain ⟨_, mid₄, h₄, h⟩ := bind_eq_ok.1 h
  obtain ⟨items, mid₅, h₅, h⟩ := bind_eq_ok.1 h
  cases h
  have hname : tableHead ts = .ok ((schemaName, tableName), mid₃) := by
    rw [tableHead, bind_of_ok h₁, bind_of_ok h₂, bind_of_ok h₃]
    rfl
  obtain ⟨head, rfl, _⟩ := (local_tableHead _).ok hname
  obtain ⟨opening, rfl, hopening⟩ := symbol_eq_ok.1 h₄
  obtain ⟨parts, closing, hparts, rfl, hclosing⟩ :=
    exists_runs_of_manyUntil (local_tableItem schemaName tableName) eq_ok_of_beforeEnd h₅
  have hbody := hparts.eq_append
  subst hbody
  refine ⟨⟨_, keyword, head, opening, parts, closing⟩, ?_, rfl, ?_⟩
  · simp [TablePlace.tokens, TablePlace.body]
  · exact ⟨hkeyword, hname, hopening, hparts, List.filterMap_map, hclosing⟩

/-- A declaration is that of a table, or there is no table in it. -/
theorem exists_place_or_tables_eq_nil {ts rest : List Located} {d : Document.Declarations}
    (h : Grammar.declaration ts = .ok (d, rest)) :
    (∃ p : TablePlace, ts = p.tokens ++ rest ∧ d.tables = [p.table] ∧ p.IsRead rest) ∨
      d.tables = [] := by
  unfold Grammar.declaration at h
  rcases begins_or_stops (·.isKeyword .table) ts with ⟨t, after, rfl, ht⟩ | htable
  · rw [accept_then_of_true ht] at h
    exact .inl (exists_place_of_table ht h)
  right
  rw [accept_then_of_stops htable] at h
  rcases begins_or_stops (·.isKeyword .ref) ts with ⟨t, after, rfl, ht⟩ | href
  · rw [accept_then_of_true ht] at h
    obtain ⟨rs, mid, h₁, h⟩ := bind_eq_ok.1 h
    cases h
    rfl
  rw [accept_then_of_stops href] at h
  rcases begins_or_stops (·.isKeyword .enum) ts with ⟨t, after, rfl, ht⟩ | henum
  · rw [accept_then_of_true ht] at h
    obtain ⟨e, mid, h₁, h⟩ := bind_eq_ok.1 h
    cases h
    rfl
  rw [accept_then_of_stops henum] at h
  rcases begins_or_stops isSkipped ts with ⟨t, after, rfl, ht⟩ | hskipped
  · rw [accept_then_of_true ht] at h
    obtain ⟨_, mid, h₁, h⟩ := bind_eq_ok.1 h
    cases h
    rfl
  · rw [accept_then_of_stops hskipped] at h
    contradiction

/-- A table among all that is declared is declared by one of the declarations. -/
theorem mem_tables_concat {t : Document.Table} {ds : List Document.Declarations}
    (h : t ∈ (Document.Declarations.concat ds).tables) : ∃ d ∈ ds, t ∈ d.tables := by
  induction ds with
  | nil => contradiction
  | cons d ds ih =>
    rw [Document.Declarations.concat, Document.Declarations.tables_append, List.mem_append] at h
    rcases h with h | h
    · exact ⟨d, List.mem_cons_self, h⟩
    · obtain ⟨e, he, ht⟩ := ih h
      exact ⟨e, List.mem_cons_of_mem d he, ht⟩

/-- Every table of a document has its place among the tokens. -/
theorem exists_place {ts rest : List Located} {d : Document.Declarations}
    (h : declarations ts = .ok (d, rest)) {t : Document.Table} (ht : t ∈ d.tables) :
    ∃ p : TablePlace, p.IsIn ts ∧ p.table = t := by
  obtain ⟨ds, mid, h₁, h⟩ := bind_eq_ok.1 h
  cases h
  obtain ⟨parts, hparts, rfl, -⟩ := exists_runs_of_repeatUntil local_declaration id h₁
  obtain ⟨e, he, hte⟩ := mem_tables_concat ht
  obtain ⟨⟨taken, _⟩, hpart, rfl⟩ := List.mem_map.1 he
  obtain ⟨xs, ys, rfl⟩ := List.append_of_mem hpart
  obtain ⟨behind, hxs, hys⟩ := hparts.exists_of_append
  obtain ⟨after, -, hd, -⟩ := hys.exists_of_cons
  rcases exists_place_or_tables_eq_nil hd with ⟨p, rfl, htable, hread⟩ | hnil
  · rw [htable, List.mem_singleton] at hte
    exact ⟨p, ⟨xs, after, hxs, hread⟩, hte.symm⟩
  · rw [hnil] at hte
    contradiction

/-! ## Behind a name -/

open Lexeme (FollowsName)
open Phrase (optional)

/-- Tokens that may stand behind the name of a table or of a field. -/
def BehindName (ts : List Located) : Prop := ∀ t ∈ ts.head?, FollowsName t.token

/-- Before such tokens a word ends with a character that parts words. -/
theorem partsWords_of_behindName {p : Position} {cs : List Char} {ts : List Located}
    (h : Lexeme.Reads p cs ts) (hts : ts ≠ []) (hend : ∀ c ∈ cs.head?, Lexeme.isNameChar c = false)
    (hfollow : BehindName ts) : ∀ c ∈ cs.head?, Text.PartsWords c := by
  obtain ⟨t, ts, rfl⟩ := List.exists_cons_of_ne_nil hts
  exact Lexeme.partsWords_of_reads h hend (hfollow t rfl)

/-- A name may stand behind a name. -/
theorem behindName_of_isName {t : Located} {ts : List Located} (h : Rule.IsName t.token) :
    BehindName (t :: ts) := by
  rintro u ⟨⟩
  exact h.elim .inl fun h => .inr (.inl h)

/-- A keyword may stand behind a name. -/
theorem behindName_of_isKeyword {t : Located} {ts : List Located} {k : Keyword}
    (h : t.token.isKeyword k = true) : BehindName (t :: ts) :=
  behindName_of_isName (isName_of_isKeyword h)

/-- What may be left out does not matter if it begins as well with such a token. -/
theorem behindName_of_optional {a : Phrase} {ts rest : List Located}
    (ha : ∀ {ts}, a ts rest → BehindName ts) (h : optional a ts rest) (hrest : BehindName rest) :
    BehindName ts :=
  h.elim (fun he => he ▸ hrest) ha

/-- Settings may stand behind a name, if what follows them may. -/
theorem behindName_of_settings {ts rest : List Located} {ss : List Setting}
    (h : Grammar.settings ts = .ok (ss, rest)) (hrest : BehindName rest) : BehindName ts := by
  refine behindName_of_optional ?_ (derives_settings h) hrest
  rintro _ ⟨_, ⟨t, rfl, ht⟩, _⟩ u ⟨⟩
  exact .inr (.inr (.inl ht))

/-- An alias may stand behind a name, if what follows it may. -/
theorem behindName_of_tableAlias {ts rest : List Located} {n : Option String}
    (h : tableAlias ts = .ok (n, rest)) (hrest : BehindName rest) : BehindName ts := by
  refine behindName_of_optional ?_ (derives_tableAlias h) hrest
  rintro _ ⟨_, ⟨t, rfl, ht⟩, _⟩
  exact behindName_of_isKeyword ht

/-- A type may stand behind a name, if what follows it may. -/
theorem behindName_of_fieldType {line : Nat} {ts rest : List Located} {type : Document.FieldType}
    (h : Grammar.fieldType (some line) ts = .ok (type, rest)) (hrest : BehindName rest) :
    BehindName ts := by
  rcases Phrase.choice_two.1 (derives_fieldType h) with ⟨⟨t, _, rfl, ht, _⟩, _⟩ | ⟨_, rfl⟩
  · exact behindName_of_isName ht
  · exact hrest

/-- The name of a table without a schema is its first token, and an alias, settings or the block
follow. -/
theorem exists_name_of_tableHead {ts rest : List Located} {name : String}
    (h : tableHead ts = .ok ((none, name), rest)) (hrest : BehindName rest) :
    ∃ t after, ts = t :: after ∧ t.token.name? = some name ∧ BehindName after := by
  obtain ⟨q, mid₁, h₁, h⟩ := bind_eq_ok.1 h
  obtain ⟨aliasName, mid₂, h₂, h⟩ := bind_eq_ok.1 h
  obtain ⟨ss, mid₃, h₃, h⟩ := bind_eq_ok.1 h
  cases h
  obtain ⟨first, mid, h₄, h₅⟩ := bind_eq_ok.1 h₁
  obtain ⟨t, rfl, ht⟩ := take_eq_ok.1 h₄
  rcases begins_or_stops (is .dot) mid with ⟨u, after, rfl, hu⟩ | hs
  · -- behind a point the first name would be that of a schema
    rw [accept_then_of_true hu] at h₅
    obtain ⟨second, _, _, h₆⟩ := bind_eq_ok.1 h₅
    cases h₆
  · rw [accept_then_of_stops hs] at h₅
    cases h₅
    exact ⟨t, _, rfl, ht, behindName_of_tableAlias h₂ (behindName_of_settings h₃ hrest)⟩

/-- A setting does not change the name of its field. -/
@[simp] theorem name_applyTo (s : Setting) (f : Document.Field) : (s.applyTo f).name = f.name := by
  unfold Setting.applyTo
  split <;> rfl

/-- What no setting of a field changes, all settings leave as it is. -/
theorem foldl_applyTo {g : Document.Field → α} (h : ∀ s f, g (Setting.applyTo s f) = g f)
    (ss : List Setting) (f : Document.Field) : g (ss.foldl (fun f s => s.applyTo f) f) = g f := by
  induction ss generalizing f with
  | nil => rfl
  | cons s ss ih => rw [List.foldl_cons, ih, h]

/-- The name of a field is its first token, and a type, settings or the next item follow. -/
theorem exists_name_of_field {schemaName : Option String} {tableName : String}
    {ts rest : List Located} {f : Document.Field} {references : List Document.Reference}
    (h : Grammar.field schemaName tableName ts = .ok ((f, references), rest))
    (hrest : BehindName rest) :
    ∃ t after, ts = t :: after ∧ t.token.name? = some f.name ∧ BehindName after := by
  rw [Grammar.field, line?_then] at h
  obtain ⟨fieldName, mid₁, h₁, h⟩ := bind_eq_ok.1 h
  obtain ⟨t, rfl, ht⟩ := take_eq_ok.1 h₁
  obtain ⟨type, mid₂, h₂, h⟩ := bind_eq_ok.1 h
  obtain ⟨ss, mid₃, h₃, h⟩ := bind_eq_ok.1 h
  cases h
  refine ⟨t, mid₁, rfl, ?_, behindName_of_fieldType h₂ (behindName_of_settings h₃ hrest)⟩
  rw [ht, foldl_applyTo name_applyTo]

/-- Every item begins with a name. -/
theorem behindName_of_tableItem {schemaName : Option String} {tableName : String}
    {ts rest : List Located} {i : TableItem}
    (h : tableItem schemaName tableName ts = .ok (i, rest)) : BehindName ts := by
  rcases Phrase.choice_four.1 (derives_tableItem h) with h | h | h | ⟨_, h⟩
  · obtain ⟨_, ⟨t, rfl, ht⟩, _⟩ := h
    exact behindName_of_isKeyword ht
  · obtain ⟨_, ⟨t, rfl, ht⟩, _⟩ := h
    exact behindName_of_isKeyword ht
  · obtain ⟨_, ⟨t, rfl, ht⟩, _⟩ := h
    exact behindName_of_isKeyword ht
  · obtain ⟨t, _, rfl, ht, _⟩ := h
    exact behindName_of_isName ht

/-- Items may stand behind a name, if what follows them may: each begins with one. -/
theorem behindName_of_runs {schemaName : Option String} {tableName : String}
    {ts rest : List Located} {parts : List (List Located × TableItem)}
    (h : Runs (tableItem schemaName tableName) ts parts rest) (hrest : BehindName rest) :
    BehindName ts := by
  cases h with
  | nil => exact hrest
  | cons hitem _ => exact behindName_of_tableItem hitem

end Grammar

namespace TablePlace.IsRead

open Grammar (BehindName)

variable {p : TablePlace} {rest : List Located}

/-- The closing brace of a table may stand behind a name. -/
theorem behindName_closing (h : p.IsRead rest) : BehindName (p.closing :: rest) := by
  rintro t ⟨⟩
  exact .inr (.inr (.inr (.inr h.closing)))

/-- The first token behind the keyword of a table without a schema is its name. -/
theorem exists_name (h : p.IsRead rest) (hschema : p.table.schemaName = none) :
    ∃ t after, p.head = t :: after ∧ t.token.name? = some p.table.name ∧
      BehindName (after ++ p.opening :: (p.body ++ p.closing :: rest)) := by
  have hhead := h.head
  rw [hschema] at hhead
  have hopening : BehindName (p.opening :: (p.body ++ p.closing :: rest)) := by
    rintro t ⟨⟩
    exact .inr (.inr (.inr (.inl h.opening)))
  obtain ⟨t, after, htokens, ht, hafter⟩ := Grammar.exists_name_of_tableHead hhead hopening
  cases hp : p.head with
  | nil =>
    -- an opening brace is no name
    rw [hp, List.nil_append] at htokens
    obtain ⟨rfl, -⟩ := List.cons.inj htokens
    rw [h.opening] at ht
    contradiction
  | cons u head =>
    rw [hp, List.cons_append] at htokens
    obtain ⟨rfl, rfl⟩ := List.cons.inj htokens
    exact ⟨u, head, rfl, ht, hafter⟩

/-- Every field is among the items, and a token names it. -/
theorem exists_hasField (h : p.IsRead rest) {f : Document.Field} (hf : f ∈ p.table.fields) :
    ∃ t, p.HasField t f := by
  rw [h.fields] at hf
  obtain ⟨⟨taken, item⟩, hmem, hitem⟩ := List.mem_filterMap.1 hf
  cases item with
  | note | indexes => contradiction
  | field decl references =>
    obtain rfl : decl = f := Option.some.inj hitem
    obtain ⟨after, hread⟩ := h.items.exists_of_mem hmem
    -- an item takes a token
    have hlength := Grammar.advances_tableItem _ _ hread
    cases taken with
    | nil => exact absurd hlength (Nat.lt_irrefl _)
    | cons t more => exact ⟨t, more, references, hmem⟩

/-- A field is named by a token of the body. -/
theorem exists_field (h : p.IsRead rest) {t : Located} {f : Document.Field}
    (hfield : p.HasField t f) :
    ∃ before after, p.body = before ++ t :: after ∧ t.token.name? = some f.name ∧
      BehindName (after ++ p.closing :: rest) := by
  obtain ⟨more, references, hmem⟩ := hfield
  obtain ⟨xs, ys, hitems⟩ := List.append_of_mem hmem
  have hruns := h.items
  rw [hitems] at hruns
  obtain ⟨mid, -, hruns⟩ := hruns.exists_of_append
  obtain ⟨behind, rfl, hitem, hruns⟩ := hruns.exists_of_cons
  rw [List.cons_append] at hitem
  have hbehind := Grammar.behindName_of_runs hruns h.behindName_closing
  obtain ⟨u, after, hu, hname, hafter⟩ :=
    Grammar.exists_name_of_field (Grammar.tableItem_eq_ok_field.1 hitem).2 hbehind
  obtain ⟨rfl, rfl⟩ := List.cons.inj hu
  rw [hruns.eq_append, ← List.append_assoc] at hafter
  refine ⟨xs.flatMap (·.1), more ++ ys.flatMap (·.1), ?_, hname, hafter⟩
  simp [body, hitems]

end TablePlace.IsRead

end SchemaDiagram
