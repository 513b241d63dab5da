import SchemaDiagram.Proofs.Document.Concat
import SchemaDiagram.Proofs.Document.Places

/-!
# SchemaDiagram.Proofs.Document.PathNames

The names that a path is written with, and those of the place it stands for.

```
a          table a                    a.(x, y)      fields x and y of table a
a.x        field x of table a         s.a.(x, y)    fields x and y of table a of schema s
s.a.x      field x of table a of schema s
```

These forms keep all their names, and they are the paths with two points at most.  A path may go on
with more points, and then only its end counts: each point beyond the second costs a name at the
front.

1. `Path.exists_lost` says this of names and `exists_isRead` of the tokens of a path.
2. Every reference among declarations stands among their tokens, as a line with two such paths or
   as a setting with one (`exhibits_declarations`, by way of `Exhibits`, from `exhibits_reference`
   and `exhibits_setting`).
-/

namespace SchemaDiagram

/-! ## Names and points -/

/-- The names of a place: its schema if it has one, its table, its fields. -/
def Document.Path.names (p : Document.Path) : List String :=
  p.schemaName.toList ++ p.tableName :: p.fieldNames

/-- The names among tokens. -/
def names (ts : List Located) : List String := ts.filterMap (·.token.name?)

/-- The number of points among tokens. -/
def points (ts : List Located) : Nat := ts.countP fun t => Parser.is .dot t.token

@[simp] theorem names_nil : names [] = [] := rfl

/-- Names are collected token by token. -/
@[simp] theorem names_append (ts us : List Located) : names (ts ++ us) = names ts ++ names us :=
  List.filterMap_append

@[simp] theorem points_nil : points [] = 0 := rfl

/-- Points are counted token by token. -/
@[simp] theorem points_append (ts us : List Located) : points (ts ++ us) = points ts + points us :=
  List.countP_append

section

variable {t : Located} {ts : List Located}

/-- A name is among the names of the tokens that it begins. -/
theorem names_cons_of_some {n : String} (h : t.token.name? = some n) :
    names (t :: ts) = n :: names ts :=
  List.filterMap_cons_some h

/-- A name is no point. -/
theorem points_cons_of_some {n : String} (h : t.token.name? = some n) :
    points (t :: ts) = points ts := by
  refine List.countP_cons_of_neg ?_
  rw [Parser.is_eq_true]
  intro ht
  rw [ht] at h
  contradiction

/-- A symbol adds no name. -/
theorem names_cons_symbol {s : Symbol} (h : t.token = .symbol s) : names (t :: ts) = names ts :=
  List.filterMap_cons_none (by rw [h]; rfl)

/-- Of the symbols only the point counts. -/
theorem points_cons_symbol {s : Symbol} (h : t.token = .symbol s) :
    points (t :: ts) = points ts + if s = .dot then 1 else 0 := by
  rw [points, List.countP_cons, h]
  simp [points, Parser.is]

end

namespace Document

/-- Of names joined by points, with a list of fields behind them or without, the place has the last
ones. -/
theorem Path.exists_lost (first : String) (more : List String)
    (fieldNames : Option (List String)) :
    ∃ lost, first :: more ++ fieldNames.getD [] = lost ++ (ofNames first more fieldNames).names ∧
      lost.length = more.length + (if fieldNames.isSome then 1 else 0) - 2 := by
  -- the names in the order in which they are given to the parts of the place
  obtain ⟨last, before, hreverse⟩ : ∃ last before, (first :: more).reverse = last :: before :=
    List.exists_cons_of_ne_nil (by simp)
  have hnames : first :: more = before.reverse ++ [last] := by
    rw [← List.reverse_cons, ← hreverse, List.reverse_reverse]
  have hlength : more.length = before.length := by simpa using congrArg List.length hnames
  cases fieldNames with
  | some fields =>
    have hplace : ofNames first more (some fields) = ⟨before.head?, last, fields⟩ := by
      simp only [ofNames, hreverse]
    rw [hplace, hnames, hlength]
    cases before with
    | nil => exact ⟨[], rfl, rfl⟩
    | cons schema before => exact ⟨before.reverse, by simp [names], by simp⟩
  | none =>
    cases before with
    | nil =>
      obtain ⟨rfl, rfl⟩ := List.cons.inj hnames
      exact ⟨[], rfl, rfl⟩
    | cons table before =>
      have hplace : ofNames first more none = ⟨before.head?, table, [last]⟩ := by
        simp only [ofNames, hreverse]
      rw [hplace, hnames, hlength]
      cases before with
      | nil => exact ⟨[], rfl, rfl⟩
      | cons schema before => exact ⟨before.reverse, by simp [names], by simp⟩

end Document

namespace Grammar

open SchemaDiagram.Parser
open SchemaDiagram.Document (Path Reference Relation)

variable {ts rest : List Located}

/-! ## Paths -/

/-- Names behind separators, which are points or not. -/
theorem exists_of_namesAfter {separator : Symbol} {stop : Token → Bool} {e : Expected}
    {ns : List String} (h : namesAfter separator stop e ts = .ok (ns, rest)) :
    ∃ taken, ts = taken ++ rest ∧ names taken = ns ∧
      points taken = if separator = .dot then ns.length else 0 := by
  fun_induction namesAfter separator stop e ts generalizing ns with
  | case1 => cases h; exact ⟨[], rfl, rfl, by simp⟩
  | case2 => contradiction
  | case3 => cases h; exact ⟨[], rfl, rfl, by simp⟩
  | case4 => contradiction
  | case5 => contradiction
  | case6 t u ts hsep n hn ns' after hr ih =>
    cases h
    obtain ⟨taken, rfl, hnames, hpoints⟩ := ih hr
    rw [Bool.and_eq_true] at hsep
    have ht := is_eq_true.1 hsep.1
    refine ⟨t :: u :: taken, rfl, ?_, ?_⟩
    · rw [names_cons_symbol ht, names_cons_of_some hn, hnames]
    · rw [points_cons_symbol ht, points_cons_of_some hn, hpoints]
      split <;> rfl
  | case7 => cases h; exact ⟨[], rfl, rfl, by simp⟩

/-- A list of fields stands behind one point. -/
theorem exists_of_fieldList {fieldNames : Option (List String)}
    (h : fieldList ts = .ok (fieldNames, rest)) :
    ∃ taken, ts = taken ++ rest ∧ names taken = fieldNames.getD [] ∧
      points taken = if fieldNames.isSome then 1 else 0 := by
  by_cases hb : BeginsBoth (is .dot) (is .openParen) ts
  · obtain ⟨t, u, mid, rfl, ht, hu⟩ := hb
    rw [fieldList, acceptBoth_then_of_true ht hu] at h
    obtain ⟨first, mid₁, hfirst, h⟩ := bind_eq_ok.1 h
    obtain ⟨more, mid₂, hmore, h⟩ := bind_eq_ok.1 h
    obtain ⟨⟨⟩, mid₃, hclose, h⟩ := bind_eq_ok.1 h
    cases h
    obtain ⟨f, rfl, hf⟩ := take_eq_ok.1 hfirst
    obtain ⟨taken, rfl, hnames, hpoints⟩ := exists_of_namesAfter hmore
    obtain ⟨c, rfl, hc⟩ := symbol_eq_ok.1 hclose
    have ht := is_eq_true.1 ht
    have hu := is_eq_true.1 hu
    refine ⟨t :: u :: f :: (taken ++ [c]), by simp, ?_, ?_⟩
    · rw [names_cons_symbol ht, names_cons_symbol hu, names_cons_of_some hf, names_append,
        names_cons_symbol hc, hnames]
      simp
    · rw [points_cons_symbol ht, points_cons_symbol hu, points_cons_of_some hf, points_append,
        points_cons_symbol hc, hpoints]
      rfl
  · rw [fieldList, acceptBoth_then_of_not hb] at h
    cases h
    exact ⟨[], rfl, rfl, rfl⟩

/-- Tokens that are taken for a place, in front of the tokens `rest`. -/
structure IsRead (taken rest : List Located) (p : Path) : Prop where
  path : path (taken ++ rest) = .ok (p, rest)
  /-- Of the names among the tokens, one at the front is lost for each point beyond the second. -/
  exists_lost : ∃ lost, names taken = lost ++ p.names ∧ lost.length = points taken - 2

/-- No name is lost exactly if there are two points at most. -/
theorem IsRead.names_eq_iff {taken : List Located} {p : Path} (h : IsRead taken rest p) :
    names taken = p.names ↔ points taken ≤ 2 := by
  obtain ⟨lost, hnames, hlength⟩ := h.exists_lost
  rw [hnames, List.append_left_eq_self, ← List.length_eq_zero_iff, hlength]
  omega

/-- Tokens that are taken for a path are read, and the names that are lost are those at the
front. -/
theorem exists_isRead {p : Path} (h : path ts = .ok (p, rest)) :
    ∃ taken, ts = taken ++ rest ∧ IsRead taken rest p := by
  have hpath := h
  obtain ⟨first, mid₁, hfirst, h⟩ := bind_eq_ok.1 h
  obtain ⟨more, mid₂, hmore, h⟩ := bind_eq_ok.1 h
  obtain ⟨fieldNames, mid₃, hfields, h⟩ := bind_eq_ok.1 h
  cases h
  obtain ⟨f, rfl, hf⟩ := take_eq_ok.1 hfirst
  obtain ⟨joined, rfl, hnames, hpoints⟩ := exists_of_namesAfter hmore
  obtain ⟨list, rfl, hnames', hpoints'⟩ := exists_of_fieldList hfields
  rw [if_pos rfl] at hpoints
  refine ⟨f :: (joined ++ list), by simp, by simpa using hpath, ?_⟩
  rw [names_cons_of_some hf, points_cons_of_some hf, names_append, points_append, hnames, hnames',
    hpoints, hpoints']
  exact Path.exists_lost first more fieldNames

/-! ## References -/

/-- Tokens begin with a reference: with its two places and the sign between them, or with the value
of a setting, which is the reference of a field. -/
inductive BeginsReference : List Located → Reference → Prop
  | line {n : Option String} {source target rest : List Located} {sign : Located} {p q : Path}
      {r : Relation} :
      IsRead source (sign :: (target ++ rest)) p → relation? sign.token = some r →
      IsRead target rest q →
      BeginsReference (source ++ sign :: (target ++ rest)) (.of n p r q)
  | setting {schemaName : Option String} {tableName fieldName : String} {target rest : List Located}
      {colon sign : Located} {q : Path} {r : Relation} :
      colon.token = .symbol .colon → relation? sign.token = some r → IsRead target rest q →
      BeginsReference (colon :: sign :: (target ++ rest))
        (.of none ⟨schemaName, tableName, [fieldName]⟩ r q)

/-- A reference stands among tokens. -/
def HasReference (ts : List Located) (r : Reference) : Prop :=
  ∃ before after, ts = before ++ after ∧ BeginsReference after r

/-- The references that a parser declares stand among the tokens. -/
def Exhibits (p : Parser α) (declares : α → Reference → Prop) : Prop :=
  ∀ ⦃ts a rest r⦄, p ts = .ok (a, rest) → declares a r → HasReference ts r

section

variable {p item : Parser α} {declares : α → Reference → Prop} {mid : List Located}
  {r : Reference}

/-- A reference stands among tokens whatever stands before them. -/
theorem HasReference.append (h : HasReference ts r) (taken : List Located) :
    HasReference (taken ++ ts) r := by
  obtain ⟨before, after, rfl, hr⟩ := h
  exact ⟨taken ++ before, after, by simp, hr⟩

theorem HasReference.cons (h : HasReference ts r) (t : Located) : HasReference (t :: ts) r :=
  h.append [t]

/-- What stands behind a part stands among all tokens. -/
theorem HasReference.behind {a : α} (h : HasReference mid r) (hp : Local p)
    (hmid : p ts = .ok (a, mid)) : HasReference ts r := by
  obtain ⟨taken, rfl, -⟩ := (hp ts).ok hmid
  exact h.append taken

/-- The references that repeated items declare stand among the tokens, each in its item. -/
theorem Exhibits.repeatUntil {stop : List Located → Bool} {hi : Advances item} (hp : Local p)
    (hitem : ∀ {ts r}, item ts = .ok r → p ts = .ok r) (h : Exhibits p declares) :
    Exhibits (repeatUntil stop item hi) fun as r => ∃ a ∈ as, declares a r := by
  rintro ts _ rest r hok ⟨a, ha, hr⟩
  obtain ⟨parts, hruns, rfl, -⟩ := exists_runs_of_repeatUntil hp hitem hok
  obtain ⟨⟨taken, _⟩, hpart, rfl⟩ := List.mem_map.1 ha
  obtain ⟨xs, ys, rfl⟩ := List.append_of_mem hpart
  obtain ⟨mid, hxs, hys⟩ := hruns.exists_of_append
  obtain ⟨_, _, hok, -⟩ := hys.exists_of_cons
  rw [hxs.eq_append]
  exact (h hok hr).append _

/-- The references that the items of a body declare stand among its tokens. -/
theorem Exhibits.manyUntil {close : Symbol} {hi : Advances item} (hp : Local p)
    (hitem : ∀ {ts r}, item ts = .ok r → p ts = .ok r) (h : Exhibits p declares) :
    Exhibits (manyUntil close item hi) fun as r => ∃ a ∈ as, declares a r := by
  intro ts as rest r hok hr
  obtain ⟨as', mid, hrepeat, hok⟩ := bind_eq_ok.1 hok
  obtain ⟨_, _, _, hok⟩ := bind_eq_ok.1 hok
  cases hok
  exact h.repeatUntil hp hitem hrepeat hr

end

/-! ## From settings and lines to documents -/

/-- A reference that is read begins with its two places and the sign between them. -/
theorem exhibits_reference (n : Option String) : Exhibits (reference n) (· = ·) := by
  rintro ts r rest _ h rfl
  obtain ⟨p, mid₁, hsource, h⟩ := bind_eq_ok.1 h
  obtain ⟨relation, mid₂, hrelation, h⟩ := bind_eq_ok.1 h
  obtain ⟨q, mid₃, htarget, h⟩ := bind_eq_ok.1 h
  obtain ⟨_, mid₄, _, h⟩ := bind_eq_ok.1 h
  cases h
  obtain ⟨source, rfl, hp⟩ := exists_isRead hsource
  obtain ⟨sign, rfl, hsign⟩ := take_eq_ok.1 hrelation
  obtain ⟨target, rfl, hq⟩ := exists_isRead htarget
  exact ⟨[], _, rfl, .line hp hsign hq⟩

/-- The reference that a setting makes begins with the setting's colon. -/
theorem exhibits_setting (schemaName : Option String) (tableName fieldName : String) :
    Exhibits setting fun s r => s.reference? ⟨schemaName, tableName, [fieldName]⟩ = some r := by
  intro ts s rest r h hr
  obtain ⟨key, mid₁, hkey, h⟩ := bind_eq_ok.1 h
  obtain ⟨value, mid₂, hvalue, h⟩ := bind_eq_ok.1 h
  obtain ⟨_, mid₃, _, h⟩ := bind_eq_ok.1 h
  cases h
  unfold Setting.reference? at hr
  split at hr
  · rename_i hlink
    cases hlink
    cases hr
    obtain ⟨colon, sign, mid, rfl, hcolon, hsign, hpath⟩ := exists_of_optionalValue_link hvalue
    obtain ⟨target, rfl, hq⟩ := exists_isRead hpath
    exact HasReference.behind ⟨[], _, rfl, .setting hcolon hsign hq⟩ local_settingKey hkey
  · contradiction

/-- The references of a field stand among its settings. -/
theorem exhibits_settings (schemaName : Option String) (tableName fieldName : String) :
    Exhibits settings fun ss r =>
      ∃ s ∈ ss, s.reference? ⟨schemaName, tableName, [fieldName]⟩ = some r := by
  intro ts ss rest r h hr
  rcases begins_or_stops (is .openBracket) ts with ⟨t, after, rfl, ht⟩ | hs
  · rw [settings, accept_then_of_true ht] at h
    exact ((exhibits_setting ..).manyUntil local_setting id h hr).cons t
  · rw [settings, accept_then_of_stops hs] at h
    cases h
    simp at hr

/-- The references of a field stand behind its name and its type. -/
theorem exhibits_field (schemaName : Option String) (tableName : String) :
    Exhibits (field schemaName tableName) fun x r => r ∈ x.2 := by
  intro ts x rest r h hr
  rw [field, line?_then] at h
  obtain ⟨fieldName, mid₁, hname, h⟩ := bind_eq_ok.1 h
  obtain ⟨type, mid₂, htype, h⟩ := bind_eq_ok.1 h
  obtain ⟨ss, mid₃, hss, h⟩ := bind_eq_ok.1 h
  cases h
  obtain ⟨taken, rfl, -⟩ := (localAt_fieldType _ _).ok htype
  have hr := exhibits_settings _ _ _ hss (List.mem_filterMap.1 hr)
  exact (hr.append taken).behind (local_name _) hname

/-- Of the items of a table only fields make references. -/
theorem exhibits_tableItem (schemaName : Option String) (tableName : String) :
    Exhibits (tableItem schemaName tableName) fun item r => r ∈ item.references := by
  intro ts item rest r h hr
  cases item with
  | note | indexes => contradiction
  | field f rs => exact exhibits_field _ _ (tableItem_eq_ok_field.1 h).2 hr

/-- The references of a table stand in its body. -/
theorem exhibits_table : Exhibits table fun d r => r ∈ d.references := by
  intro ts d rest r h hr
  obtain ⟨⟨schemaName, tableName⟩, mid₁, hname, h⟩ := bind_eq_ok.1 h
  obtain ⟨aliasName, mid₂, halias, h⟩ := bind_eq_ok.1 h
  obtain ⟨ss, mid₃, hss, h⟩ := bind_eq_ok.1 h
  obtain ⟨_, mid₄, hopen, h⟩ := bind_eq_ok.1 h
  obtain ⟨items, mid₅, hitems, h⟩ := bind_eq_ok.1 h
  cases h
  have hr := (exhibits_tableItem schemaName tableName).manyUntil
    (local_tableItem schemaName tableName) eq_ok_of_beforeEnd hitems (List.mem_flatMap.1 hr)
  exact (((hr.behind (local_symbol _ _) hopen).behind local_settings hss).behind local_tableAlias
    halias).behind (local_qualifiedName _) hname

/-- References stand behind the colon, or between the braces. -/
theorem exhibits_references : Exhibits references fun rs r => r ∈ rs := by
  intro ts rs rest r h hr
  obtain ⟨n, mid₁, hname, h⟩ := bind_eq_ok.1 h
  refine HasReference.behind ?_ (local_take? _) hname
  rcases begins_or_stops (is .colon) mid₁ with ⟨t, after, rfl, ht⟩ | hs
  · rw [accept_then_of_true ht] at h
    obtain ⟨r', _, hok, h⟩ := bind_eq_ok.1 h
    cases h
    exact (exhibits_reference n hok (List.mem_singleton.1 hr).symm).cons t
  · rw [accept_then_of_stops hs] at h
    obtain ⟨_, mid₂, hopen, h⟩ := bind_eq_ok.1 h
    have hr := (exhibits_reference n).manyUntil (local_reference n) eq_ok_of_beforeEnd h
      ⟨r, hr, rfl⟩
    exact hr.behind (local_symbol _ _) hopen

/-- The references of a declaration stand in it, whichever kind it is. -/
theorem exhibits_declaration : Exhibits declaration fun d r => r ∈ d.references := by
  intro ts d rest r h hr
  unfold declaration at h
  rcases begins_or_stops (·.isKeyword .table) ts with ⟨t, after, rfl, ht⟩ | htable
  · rw [accept_then_of_true ht] at h
    exact (exhibits_table h hr).cons t
  rw [accept_then_of_stops htable] at h
  rcases begins_or_stops (·.isKeyword .ref) ts with ⟨t, after, rfl, ht⟩ | href
  · rw [accept_then_of_true ht] at h
    obtain ⟨rs, _, hok, h⟩ := bind_eq_ok.1 h
    cases h
    exact (exhibits_references hok hr).cons t
  rw [accept_then_of_stops href] at h
  rcases begins_or_stops (·.isKeyword .enum) ts with ⟨t, after, rfl, ht⟩ | henum
  · rw [accept_then_of_true ht] at h
    obtain ⟨_, _, _, h⟩ := bind_eq_ok.1 h
    cases h
    contradiction
  rw [accept_then_of_stops henum] at h
  rcases begins_or_stops isSkipped ts with ⟨t, after, rfl, ht⟩ | hskipped
  · rw [accept_then_of_true ht] at h
    obtain ⟨_, _, _, h⟩ := bind_eq_ok.1 h
    cases h
    contradiction
  · rw [accept_then_of_stops hskipped] at h
    contradiction

/-- A reference among all that is declared is declared by one of the declarations. -/
theorem mem_references_concat {ds : List Document.Declarations} {r : Reference}
    (h : r ∈ (Document.Declarations.concat ds).references) : ∃ d ∈ ds, r ∈ d.references := by
  induction ds with
  | nil => contradiction
  | cons d ds ih =>
    rw [Document.Declarations.concat, Document.Declarations.references_append,
      List.mem_append] at h
    rcases h with h | h
    · exact ⟨d, List.mem_cons_self, h⟩
    · obtain ⟨e, he, hr⟩ := ih h
      exact ⟨e, List.mem_cons_of_mem d he, hr⟩

/-- Every reference that is declared stands among the tokens. -/
theorem exhibits_declarations : Exhibits declarations fun d r => r ∈ d.references := by
  intro ts d rest r h hr
  obtain ⟨ds, mid, hds, h⟩ := bind_eq_ok.1 h
  cases h
  exact exhibits_declaration.repeatUntil local_declaration id hds (mem_references_concat hr)

end Grammar

namespace Document

open Grammar

/-! ## The theorem -/

/-- **Only the end of a path counts.**  Of the names that a path is written with, the place has all
but as many of the first ones as there are points beyond the second, so it has all of them exactly
if there are two points at most. -/
theorem names_eq_iff_of_path {ts rest : List Located} {p : Path} (h : path ts = .ok (p, rest)) :
    ∃ taken, ts = taken ++ rest ∧
      (∃ lost, names taken = lost ++ p.names ∧ lost.length = points taken - 2) ∧
      (names taken = p.names ↔ points taken ≤ 2) := by
  obtain ⟨taken, heq, hread⟩ := exists_isRead h
  exact ⟨taken, heq, hread.exists_lost, hread.names_eq_iff⟩

/-- A path with three points loses a name. -/
theorem names_eq_iff_of_path_four :
    path (Lexing.of "a.b.c.d").tokens = .ok (⟨some "b", "c", ["d"]⟩, []) ∧
      (∃ lost, ["a", "b", "c", "d"] = lost ++ ["b", "c", "d"] ∧ lost.length = 1) ∧
      (["a", "b", "c", "d"] = ["b", "c", "d"] ↔ 3 ≤ 2) := by
  have hpath : path (Lexing.of "a.b.c.d").tokens = .ok (⟨some "b", "c", ["d"]⟩, []) := by
    decide +kernel
  have hnames : names (Lexing.of "a.b.c.d").tokens = ["a", "b", "c", "d"] := by decide +kernel
  have hpoints : points (Lexing.of "a.b.c.d").tokens = 3 := by decide +kernel
  obtain ⟨taken, htaken, hlost, hiff⟩ := names_eq_iff_of_path hpath
  rw [List.append_nil] at htaken
  rw [← htaken, hnames, hpoints] at hlost hiff
  exact ⟨hpath, hlost, hiff⟩

/-- A name is lost from a reference with three points in a path. -/
theorem not_names_eq_of_path :
    Document.ofSource "Ref: a.b.c.d > e.f" = .ok (ofDeclarations
      { references := [.of none ⟨some "b", "c", ["d"]⟩ .manyToOne ⟨none, "e", ["f"]⟩] }) ∧
    ¬ ∀ taken rest p, path (taken ++ rest) = .ok (p, rest) → names taken = p.names := by
  refine ⟨by decide +kernel, fun h => ?_⟩
  have hpath : path ((Lexing.of "a.b.c.d").tokens ++ []) = .ok (⟨some "b", "c", ["d"]⟩, []) := by
    decide +kernel
  have hnames : names (Lexing.of "a.b.c.d").tokens ≠ ["b", "c", "d"] := by decide +kernel
  exact hnames (h _ _ _ hpath)

end Document

end SchemaDiagram
