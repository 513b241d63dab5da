import SchemaDiagram.Proofs.Document.Concat
import SchemaDiagram.Proofs.Document.Detach
import SchemaDiagram.Proofs.Document.RoundTrip

/-!
# SchemaDiagram.Proofs.Document.Detached

What becomes of a table whose references are written behind it.

1. References on their own declare themselves, whatever positions their tokens have
   (`DeclareReferences`).
2. `Detaches` relates a parser of the grammar to one that detaches: what stays of a part is a part
   without references, and the tokens for behind the declaration declare these.  It goes from
   settings through fields and items to tables, one lemma for each parser.
3. Nothing looks further than the first token of what is left, except for a bracket behind a type
   and for the name of an item; so what stays of a part keeps its first two tokens where they count
   (`Alike`).
-/

namespace SchemaDiagram.Grammar

open SchemaDiagram.Parser
open Document (Declarations Field FieldType Path Reference Table)

/-! ## The same tokens at other positions -/

/-- The same tokens. -/
def SameTokens (ts ts' : List Located) : Prop := ts'.map (·.token) = ts.map (·.token)

instance : Tokenwise SameTokens where
  nil h := List.map_eq_nil_iff.1 h
  cons h := by
    obtain ⟨t, rest, rfl, ht, hrest⟩ := List.map_eq_cons_iff.1 h
    exact ⟨t, rest, rfl, ht, hrest⟩

/-! ## References on their own -/

/-- At any positions, the tokens declare the references and nothing else. -/
def DeclareReferences (tokens : List Token) (rs : List Reference) : Prop :=
  ∀ ts, ts.map (·.token) = tokens → declarations ts = .ok ({ references := rs }, [])

/-- No tokens declare no references. -/
theorem declareReferences_nil : DeclareReferences [] [] := by
  intro ts h
  rw [List.map_eq_nil_iff.1 h]
  exact bind_of_ok (repeatUntil_of_stop rfl)

/-- Tokens behind each other declare the references of both. -/
theorem DeclareReferences.append {tokens tokens' : List Token} {rs rs' : List Reference}
    (h : DeclareReferences tokens rs) (h' : DeclareReferences tokens' rs') :
    DeclareReferences (tokens ++ tokens') (rs ++ rs') := by
  intro ts hts
  obtain ⟨us, us', rfl, hus, hus'⟩ := List.map_eq_append_iff.1 hts
  exact declarations_append (h us hus) (h' us' hus')

/-- A declaration up to the end is a document. -/
theorem declarations_of_declaration {ts : List Located} {d : Declarations}
    (h : declaration ts = .ok (d, [])) : declarations ts = .ok (d, []) := by
  have hgo : ts.isEmpty = false := by
    cases ts with
    | nil => exact absurd (advances_declaration h) (Nat.lt_irrefl _)
    | cons t ts => rfl
  have hone : repeatUntil List.isEmpty declaration advances_declaration ts = .ok ([d], []) := by
    rw [repeatUntil_of_ok hgo h, bind_of_ok (repeatUntil_of_stop rfl)]
    rfl
  rw [declarations, bind_of_ok hone]
  exact congrArg (fun d => Except.ok (d, [])) (Declarations.append_empty d)

/-- The word that references begin with is their keyword, and not that of a table. -/
theorem isKeyword_ref {t : Located} (ht : t.token = .identifier "Ref") :
    t.token.isKeyword .table = false ∧ t.token.isKeyword .ref = true := by
  rw [ht]
  decide

/-- What follows the keyword and an optional name is a single reference behind a colon. -/
theorem declareReferences_of_reference {n : Option String} {nameTokens body : List Located}
    {r : Reference} (hname : nameTokens.map (·.token.name?) = n.toList.map some)
    (h : reference n body = .ok (r, [])) :
    DeclareReferences (referenceTokens (nameTokens.map (·.token)) (body.map (·.token))) [r] := by
  intro ts hts
  obtain ⟨t, ts, rfl, ht, hts⟩ := List.map_eq_cons_iff.1 hts
  obtain ⟨names, ts, rfl, hnames, hts⟩ := List.map_eq_append_iff.1 hts
  obtain ⟨c, body', rfl, hc, hbody⟩ := List.map_eq_cons_iff.1 hts
  have htake : take? Token.name? (names ++ c :: body') = .ok (n, c :: body') := by
    have hnames' : names.map (·.token.name?) = n.toList.map some := by
      rw [← hname]
      simpa [Function.comp_def] using congrArg (List.map Token.name?) hnames
    cases n with
    | none =>
      rw [List.map_eq_nil_iff.1 hnames']
      exact take?_of_stops (stops_cons.2 (by rw [hc]; rfl))
    | some n =>
      obtain ⟨u, rest, rfl, hu, hrest⟩ := List.map_eq_cons_iff.1 hnames'
      rw [List.map_eq_nil_iff.1 hrest]
      exact take?_of_some hu
  have hreference : reference n body' = .ok (r, []) := by
    obtain ⟨rest, hok, hrest⟩ := (uniform_reference n).exists_ok (R := SameTokens) hbody h
    rw [hok, Tokenwise.nil hrest]
  have hreferences : references (names ++ c :: body') = .ok ([r], []) := by
    rw [references, bind_of_ok htake, accept_then_of_true (is_eq_true.2 hc), bind_of_ok hreference]
    rfl
  refine declarations_of_declaration ?_
  obtain ⟨hs, hk⟩ := isKeyword_ref ht
  rw [declaration, accept_then_of_stops (stops_cons.2 hs), accept_then_of_true hk,
    bind_of_ok hreferences]
  rfl

/-- A relation and a path behind the tokens of a field are a reference from it. -/
theorem declareReferences_of_link {schemaName : Option String} {tableName fieldName : String}
    {link mid : List Located} {r : Document.Relation} {target : Path}
    (hrelation : relation link = .ok (r, mid)) (hpath : path mid = .ok (target, [])) :
    DeclareReferences
      (referenceTokens [] (sourceTokens schemaName tableName fieldName ++ link.map (·.token)))
      [.of none ⟨schemaName, tableName, [fieldName]⟩ r target] := by
  let source := (sourceTokens schemaName tableName fieldName).map (Located.mk · default)
  have htokens : source.map (·.token) = sourceTokens schemaName tableName fieldName := by
    simp [source, Function.comp_def]
  have hrow : Row 1 (Outline.Endpoint.fields schemaName tableName fieldName []).tokens
      (source ++ link) link :=
    ⟨source, rfl, htokens, List.forall_mem_map.2 fun _ _ => rfl⟩
  have hstops : Stops (is .dot) link := by
    obtain ⟨t, rfl, ht⟩ := take_eq_ok.1 hrelation
    rw [stops_cons, is_eq_false]
    intro hdot
    rw [hdot] at ht
    contradiction
  have hreference : reference none (source ++ link) =
      .ok (.of none ⟨schemaName, tableName, [fieldName]⟩ r target, []) := by
    rw [reference, bind_of_ok (Outline.path_of_row hrow hstops), bind_of_ok hrelation,
      bind_of_ok hpath, bind_of_ok (Outline.settings_of_stops (stops_nil _))]
    rfl
  have hname : ([] : List Located).map (·.token.name?) = (none : Option String).toList.map some :=
    rfl
  rw [← htokens, ← List.map_append]
  exact declareReferences_of_reference hname hreference

/-! ## Parts that are detached -/

/-- What `q` makes of a part that `p` takes: its tokens for behind the declaration declare the
references of the part, and what stays in its place is a part that has lost them.  The part that
stays begins like the one before, up to the second token where `look` says so. -/
def Detaches (look : Token → Bool) (p : Parser α) (bare : α → α) (refs : α → List Reference)
    (q : Parser Detached) : Prop :=
  ∀ ⦃ts a rest⦄, p ts = .ok (a, rest) → ∃ d, q ts = .ok (d, rest) ∧
    DeclareReferences d.references (refs a) ∧
    ∀ ⦃rest'⦄, rest'.head? = rest.head? →
      p (d.kept ++ rest') = .ok (bare a, rest') ∧ Alike look ts (d.kept ++ rest')

/-- A part that a local parser takes stays as it is. -/
theorem exists_unchanged {p : Parser α} (hp : Local p) {ts rest : List Located} {a : α}
    (h : p ts = .ok (a, rest)) :
    ∃ tokens, ts = tokens ++ rest ∧ ∀ ⦃rest'⦄, rest'.head? = rest.head? →
      p (tokens ++ rest') = .ok (a, rest') ∧ Alike never ts (tokens ++ rest') := by
  obtain ⟨tokens, rfl, htokens⟩ := (hp ts).ok h
  exact ⟨tokens, rfl, fun rest' hrest' =>
    ⟨htokens _ (alike_never hrest'), (alike_never hrest').append tokens⟩⟩

section

variable {item : Parser α} {hi : Advances item} {bare : α → α} {refs : α → List Reference}
variable {item' : Parser Detached} (hi' : Advances item')

/-- Any number of parts up to a test of the next token. -/
theorem Detaches.repeatUntil {stop : List Located → Bool}
    (hstop : ∀ ts ts', ts'.head? = ts.head? → stop ts' = stop ts)
    (h : Detaches never item bare refs item') :
    ∀ ⦃ts as rest⦄, repeatUntil stop item hi ts = .ok (as, rest) →
      ∃ ds, repeatUntil stop item' hi' ts = .ok (ds, rest) ∧
        DeclareReferences (Detached.concat ds).references (as.flatMap refs) ∧
        ∀ ⦃rest'⦄, rest'.head? = rest.head? →
          Parser.repeatUntil stop item hi ((Detached.concat ds).kept ++ rest') =
              .ok (as.map bare, rest') ∧
            ((Detached.concat ds).kept ++ rest').head? = ts.head? := by
  intro ts as rest hok
  fun_induction Parser.repeatUntil stop item hi ts generalizing as with
  | case1 ts hs =>
    cases hok
    exact ⟨[], repeatUntil_of_stop hs, declareReferences_nil, fun rest' hrest' =>
      ⟨repeatUntil_of_stop ((hstop _ _ hrest').trans hs), hrest'⟩⟩
  | case2 => contradiction
  | case3 => contradiction
  | case4 ts hgo a mid ha _ as' after hr ih =>
    cases hok
    rw [Bool.not_eq_true] at hgo
    obtain ⟨d, hd, hrefs, hkept⟩ := h ha
    obtain ⟨ds, hds, hmore, hrest⟩ := ih hr
    refine ⟨d :: ds, ?_, hrefs.append hmore, fun rest' hrest' => ?_⟩
    · rw [repeatUntil_of_ok hgo hd, bind_of_ok hds]
      rfl
    · obtain ⟨hagain, hhead⟩ := hrest hrest'
      obtain ⟨hone, halike⟩ := hkept hhead
      have hconcat : (Detached.concat (d :: ds)).kept ++ rest' =
          d.kept ++ ((Detached.concat ds).kept ++ rest') := List.append_assoc ..
      rw [hconcat, repeatUntil_of_ok ((hstop _ _ halike.1).trans hgo) hone, bind_of_ok hagain]
      exact ⟨rfl, halike.1⟩

/-- Parts up to a closing symbol. -/
theorem Detaches.until {close : Symbol} (h : Detaches never item bare refs item') :
    Detaches never (manyUntil close item hi) (List.map bare) (List.flatMap refs)
      (detachUntil close item' hi') := by
  intro ts as rest hok
  obtain ⟨as', mid, has, hclose⟩ := bind_eq_ok.1 hok
  obtain ⟨b, mid', hb, hpure⟩ := bind_eq_ok.1 hclose
  obtain ⟨rfl, rfl⟩ := pure_eq_ok.1 hpure
  obtain ⟨ds, hds, hrefs, hkept⟩ := h.repeatUntil hi' (begins_congr close) has
  obtain ⟨closing, rfl, hclosing⟩ := exists_unchanged (local_accept _) hb
  have hdetach : detachUntil close item' hi' ts =
      .ok (⟨(Detached.concat ds).kept ++ closing, (Detached.concat ds).references⟩, mid') :=
    (bind_of_ok hds).trans (bind_of_ok (taken_of_append closing hb))
  refine ⟨_, hdetach, hrefs, fun rest' hrest' => ?_⟩
  obtain ⟨hagain, halike⟩ := hclosing hrest'
  obtain ⟨hitems, hhead⟩ := hkept halike.1
  rw [List.append_assoc, manyUntil, bind_of_ok hitems, bind_of_ok hagain]
  exact ⟨rfl, alike_never hhead⟩

end

/-! ## Settings -/

/-- A setting without the reference that is its value. -/
def Setting.bare (s : Setting) : Setting :=
  match s.value with
  | some (.link ..) => { s with value := none }
  | _ => s

/-- For the field that has a setting, a reference in it means nothing. -/
theorem Setting.applyTo_bare (s : Setting) (f : Field) : s.bare.applyTo f = s.applyTo f := by
  obtain ⟨key, _ | _ | _⟩ := s
  · rfl
  · rfl
  · unfold bare applyTo
    split <;> simp_all

/-- A setting that has been detached makes no reference. -/
@[simp] theorem Setting.reference?_bare (source : Path) (s : Setting) :
    s.bare.reference? source = none := by
  obtain ⟨key, _ | _ | _⟩ := s <;> rfl

/-- The reference that a setting makes, if it makes one. -/
def Setting.references (source : Path) (s : Setting) : List Reference :=
  (s.reference? source).toList

/-- Behind a setting stands a comma or the bracket that closes the list. -/
theorem endsSetting_of_settingEnd {ts rest : List Located} {u : Unit}
    (h : settingEnd ts = .ok (u, rest)) : EndsSetting ts := by
  unfold settingEnd at h
  split at h
  · rename_i hclose
    obtain ⟨t, after, rfl, ht⟩ := begins_eq_true.1 hclose
    exact ⟨t, after, rfl, .inr ht⟩
  · obtain ⟨t, rfl, ht⟩ := symbol_eq_ok.1 h
    exact ⟨t, rest, rfl, .inl ht⟩

/-- The relation and the path of a value are read alike where nothing follows them. -/
theorem exists_link {key : String} {ts rest : List Located} {r : Document.Relation} {target : Path}
    (h : optionalValue key ts = .ok (some (.link r target), rest)) (hrest : Stops (is .dot) rest) :
    ∃ colon link mid, ts = colon :: link ++ rest ∧ relation link = .ok (r, mid) ∧
      path mid = .ok (target, []) := by
  obtain ⟨colon, sign, mid, rfl, -, hsign, hpath⟩ := exists_of_optionalValue_link h
  have hends : Ends (Stops (is .dot)) path := ends_path fun _ h => h
  obtain ⟨taken, rfl, htaken⟩ := hends.exists_taken (stops_nil _) hpath hrest
  exact ⟨colon, sign :: taken, taken, rfl, take_of_some hsign, htaken⟩

/-- A setting without its reference is the words of its key and what ends it. -/
theorem setting_of_words {texts : List String} (hne : texts ≠ []) {words ending rest : List Located}
    (hwords : words.map (·.token) = texts.map .identifier)
    (hend : settingEnd (ending ++ rest) = .ok ((), rest)) :
    setting (words ++ ending ++ rest) = .ok (⟨Rule.key texts, none⟩, rest) := by
  have hends := endsSetting_of_settingEnd hend
  -- The words end at what ends the setting, as they did at the colon.
  have hkey : settingKey (words ++ (ending ++ rest)) = .ok (Rule.key texts, ending ++ rest) :=
    settingKey_of_words hne ⟨words, rfl, hwords⟩ (hends.stops rfl rfl)
  have hnone : optionalValue (Rule.key texts) (ending ++ rest) = .ok (none, ending ++ rest) := by
    rw [optionalValue, accept_then_of_stops (hends.stops rfl rfl)]
    rfl
  rw [List.append_assoc, setting, bind_of_ok hkey, bind_of_ok hnone, bind_of_ok hend]
  rfl

/-- A setting that is a reference keeps its key and what ends it; any other stays as it is. -/
theorem detaches_setting (schemaName : Option String) (tableName fieldName : String) :
    Detaches never setting Setting.bare
      (Setting.references ⟨schemaName, tableName, [fieldName]⟩)
      (detachSetting (sourceTokens schemaName tableName fieldName)) := by
  intro ts s rest h
  obtain ⟨all, hall, hunchanged⟩ := exists_unchanged local_setting h
  obtain ⟨key, mid₁, hkey, h⟩ := bind_eq_ok.1 h
  obtain ⟨value, mid₂, hvalue, h⟩ := bind_eq_ok.1 h
  obtain ⟨⟨⟩, mid₃, hend, h⟩ := bind_eq_ok.1 h
  obtain ⟨rfl, rfl⟩ := pure_eq_ok.1 h
  obtain ⟨texts, hne, ⟨words, rfl, hwords⟩, rfl⟩ := derives_settingKey hkey
  obtain ⟨tokens, rfl, -⟩ := exists_unchanged (local_optionalValue _) hvalue
  obtain ⟨ending, rfl, hending⟩ := exists_unchanged local_settingEnd hend
  have hdetach : detachSetting (sourceTokens schemaName tableName fieldName)
      (words ++ (tokens ++ (ending ++ mid₃))) =
        .ok (.ofSetting (sourceTokens schemaName tableName fieldName) words value tokens ending,
          mid₃) :=
    (bind_of_ok (taken_of_append words hkey)).trans
      ((bind_of_ok (taken_of_append tokens hvalue)).trans
        (bind_of_ok (taken_of_append ending hend)))
  refine ⟨_, hdetach, ?_⟩
  obtain rfl : all = words ++ tokens ++ ending := by
    rw [← List.append_assoc, ← List.append_assoc] at hall
    exact (List.append_cancel_right hall).symm
  -- only a link declares anything, and only its tokens are left out
  cases value with
  | none => exact ⟨declareReferences_nil, hunchanged⟩
  | some v =>
    cases v with
    | text text => exact ⟨declareReferences_nil, hunchanged⟩
    | link r target =>
      obtain ⟨colon, link, mid, heq, hrelation, hpath⟩ :=
        exists_link hvalue ((endsSetting_of_settingEnd hend).stops rfl rfl)
      obtain rfl : tokens = colon :: link := List.append_cancel_right heq
      refine ⟨declareReferences_of_link hrelation hpath, fun rest' hrest' => ?_⟩
      obtain ⟨hend', -⟩ := hending hrest'
      refine ⟨setting_of_words hne hwords hend', alike_never ?_⟩
      cases words with
      | nil => exact absurd (List.map_eq_nil_iff.1 hwords.symm) hne
      | cons w words => rfl

/-- A list of settings keeps its brackets, and of each setting what stays of it. -/
theorem detaches_settings (schemaName : Option String) (tableName fieldName : String) :
    Detaches (is .openBracket) settings (List.map Setting.bare)
      (List.flatMap (Setting.references ⟨schemaName, tableName, [fieldName]⟩))
      (detachSettings (sourceTokens schemaName tableName fieldName)) := by
  intro ts ss rest h
  rcases begins_or_stops (is .openBracket) ts with ⟨t, ts, rfl, ht⟩ | hs
  · rw [settings, accept_then_of_true ht] at h
    obtain ⟨d, hd, hrefs, hkept⟩ := (detaches_setting schemaName tableName fieldName).until
      (advances_detachSetting _) h
    have hdetach : detachSettings (sourceTokens schemaName tableName fieldName) (t :: ts) =
        .ok (⟨t :: d.kept, d.references⟩, rest) :=
      (bind_of_ok (taken_of_append [t] (accept_of_true ht))).trans (bind_of_ok hd)
    refine ⟨_, hdetach, hrefs, fun rest' hrest' => ?_⟩
    obtain ⟨hagain, halike⟩ := hkept hrest'
    exact ⟨(accept_then_of_true ht).trans hagain, alike_cons halike.1 t []⟩
  · rw [Outline.settings_of_stops hs] at h
    cases h
    have hdetach : detachSettings (sourceTokens schemaName tableName fieldName) ts =
        .ok (.keep [], ts) :=
      bind_of_ok (taken_of_append [] (accept_of_stops hs))
    refine ⟨_, hdetach, declareReferences_nil, fun rest' hrest' => ?_⟩
    have halike : Alike (is .openBracket) ts rest' := ⟨hrest', .inl hs⟩
    exact ⟨Outline.settings_of_stops (halike.begins_iff.2 hs), halike⟩

/-! ## Fields and items -/

section

variable {schemaName : Option String} {tableName : String} {ts rest : List Located}

/-- A field is its name with its type, and its settings. -/
theorem field_eq_ok {x : Field × List Reference} :
    field schemaName tableName ts = .ok (x, rest) ↔ ∃ fieldName type ss mid,
      fieldHead ts = .ok ((fieldName, type), mid) ∧ settings mid = .ok (ss, rest) ∧
        x = (ss.foldl (fun f s => s.applyTo f) { name := fieldName, type },
          ss.flatMap (Setting.references ⟨schemaName, tableName, [fieldName]⟩)) := by
  constructor
  · intro h
    obtain ⟨line, mid₁, hline, h⟩ := bind_eq_ok.1 h
    obtain ⟨fieldName, mid₂, hname, h⟩ := bind_eq_ok.1 h
    obtain ⟨type, mid₃, htype, h⟩ := bind_eq_ok.1 h
    obtain ⟨ss, mid₄, hsettings, h⟩ := bind_eq_ok.1 h
    obtain ⟨rfl, rfl⟩ := pure_eq_ok.1 h
    refine ⟨fieldName, type, ss, mid₃, ?_, hsettings, ?_⟩
    · rw [fieldHead, bind_of_ok hline, bind_of_ok hname, bind_of_ok htype]
      rfl
    · rw [List.filterMap_eq_flatMap_toList]
      rfl
  · rintro ⟨fieldName, type, ss, mid, hhead, hsettings, rfl⟩
    obtain ⟨line, mid₁, hline, h⟩ := bind_eq_ok.1 hhead
    obtain ⟨fieldName, mid₂, hname, h⟩ := bind_eq_ok.1 h
    obtain ⟨type, mid₃, htype, h⟩ := bind_eq_ok.1 h
    obtain ⟨h, rfl⟩ := pure_eq_ok.1 h
    cases h
    rw [field, bind_of_ok hline, bind_of_ok hname, bind_of_ok htype, bind_of_ok hsettings,
      List.filterMap_eq_flatMap_toList]
    rfl

/-- Before its settings a field looks at the token behind a bracket, as its type does. -/
theorem localAt_fieldHead (ts : List Located) : LocalAt (is .openBracket) fieldHead ts :=
  local_line?.bindAt fun _ _ _ => (local_name _).bindAt fun _ mid _ => (localAt_fieldType _ mid).map

/-- What a field is by its settings does not depend on the references among them. -/
theorem foldl_applyTo_bare (ss : List Setting) (f : Field) :
    (ss.map Setting.bare).foldl (fun f s => s.applyTo f) f = ss.foldl (fun f s => s.applyTo f) f := by
  simp [List.foldl_map, Setting.applyTo_bare]

/-- Settings that have been detached make no references. -/
theorem flatMap_references_bare (ss : List Setting) (source : Path) :
    (ss.map Setting.bare).flatMap (Setting.references source) = [] := by
  simp [List.flatMap_map, Setting.references]

/-- What stays of a field is the same field. -/
theorem detaches_field : Detaches (fun _ => true) (field schemaName tableName)
    (fun x => (x.1, [])) (·.2) (detachField schemaName tableName) := by
  intro ts x rest h
  obtain ⟨fieldName, type, ss, mid, hhead, hsettings, rfl⟩ := field_eq_ok.1 h
  obtain ⟨d, hd, hrefs, hkept⟩ := detaches_settings schemaName tableName fieldName hsettings
  obtain ⟨head, rfl, hlocal⟩ := (localAt_fieldHead ts).ok hhead
  have hdetach : detachField schemaName tableName (head ++ mid) =
      .ok (⟨head ++ d.kept, d.references⟩, rest) :=
    (bind_of_ok (taken_of_append head hhead)).trans (bind_of_ok hd)
  refine ⟨_, hdetach, hrefs, fun rest' hrest' => ?_⟩
  obtain ⟨hagain, halike⟩ := hkept hrest'
  rw [List.append_assoc]
  constructor
  -- The type looks at a bracket and the token behind it, which is still the first of the settings.
  · refine field_eq_ok.2 ⟨fieldName, type, _, _, hlocal _ halike, hagain, ?_⟩
    rw [foldl_applyTo_bare, flatMap_references_bare]
  · cases head with
    | nil => exact absurd (advances_fieldHead hhead) (Nat.lt_irrefl _)
    | cons t head => exact alike_cons halike.1 t head

/-- An item without the references of its field. -/
def TableItem.bare : TableItem → TableItem
  | field decl _ => field decl []
  | other => other

/-- Of the items only a field is changed; which item it is stays the same. -/
theorem detaches_tableItem : Detaches never (tableItem schemaName tableName) TableItem.bare
    TableItem.references (detachItem schemaName tableName) := by
  intro ts item rest h
  obtain ⟨tokens, rfl, hunchanged⟩ := exists_unchanged (local_tableItem _ _) h
  have htaken := taken_of_append tokens h
  cases item with
  | note text =>
    exact ⟨.keep tokens, by rw [detachItem, htaken], declareReferences_nil, hunchanged⟩
  | indexes =>
    exact ⟨.keep tokens, by rw [detachItem, htaken], declareReferences_nil, hunchanged⟩
  | field decl rs =>
    obtain ⟨hnot, hfield⟩ := tableItem_eq_ok_field.1 h
    obtain ⟨d, hd, hrefs, hkept⟩ := detaches_field hfield
    refine ⟨d, by rw [detachItem, htaken]; exact hd, hrefs, fun rest' hrest' => ?_⟩
    obtain ⟨hagain, halike⟩ := hkept hrest'
    refine ⟨tableItem_eq_ok_field.2 ⟨?_, hagain⟩, alike_never halike.1⟩
    -- what stays of a field keeps its first two tokens, so it begins no special item
    rintro ⟨t, u, after, heq, hspecial⟩
    rw [heq] at halike
    obtain ⟨before, heq⟩ := halike.symm.exists_eq rfl
    exact hnot ⟨t, u, before, heq, hspecial⟩

end

/-! ## Tables -/

/-- What a table declares, read off its parts. -/
def tableOf (schemaName : Option String) (tableName : String) (aliasName : Option String)
    (settings : List Setting) (items : List TableItem) : Table where
  name := tableName
  schemaName
  aliasName
  headerColor := Setting.lastText "headercolor" settings
  note := (items.filterMap (·.note?)).getLast?.or (Setting.lastText "note" settings)
  fields := items.filterMap (·.field?)

/-- A table is its opening, up to the brace, and its body. -/
theorem table_eq_ok {ts rest : List Located} {d : Declarations} :
    table ts = .ok (d, rest) ↔ ∃ schemaName tableName aliasName ss items mid,
      tableOpening ts = .ok (((schemaName, tableName), aliasName, ss), mid) ∧
        tableBody schemaName tableName mid = .ok (items, rest) ∧
        d = { tables := [tableOf schemaName tableName aliasName ss items]
              references := items.flatMap (·.references) } := by
  constructor
  · intro h
    obtain ⟨⟨schemaName, tableName⟩, mid₁, hname, h⟩ := bind_eq_ok.1 h
    obtain ⟨aliasName, mid₂, halias, h⟩ := bind_eq_ok.1 h
    obtain ⟨ss, mid₃, hsettings, h⟩ := bind_eq_ok.1 h
    obtain ⟨u, mid₄, hopen, h⟩ := bind_eq_ok.1 h
    obtain ⟨items, mid₅, hbody, h⟩ := bind_eq_ok.1 h
    obtain ⟨rfl, rfl⟩ := pure_eq_ok.1 h
    refine ⟨schemaName, tableName, aliasName, ss, items, mid₄, ?_, hbody, rfl⟩
    rw [tableOpening, bind_of_ok hname, bind_of_ok halias, bind_of_ok hsettings, bind_of_ok hopen]
    rfl
  · rintro ⟨schemaName, tableName, aliasName, ss, items, mid, hhead, hbody, rfl⟩
    obtain ⟨qualified, mid₁, hname, h⟩ := bind_eq_ok.1 hhead
    obtain ⟨aliasName, mid₂, halias, h⟩ := bind_eq_ok.1 h
    obtain ⟨ss, mid₃, hsettings, h⟩ := bind_eq_ok.1 h
    obtain ⟨u, mid₄, hopen, h⟩ := bind_eq_ok.1 h
    obtain ⟨h, rfl⟩ := pure_eq_ok.1 h
    cases h
    exact (bind_of_ok hname).trans ((bind_of_ok halias).trans ((bind_of_ok hsettings).trans
      ((bind_of_ok hopen).trans (bind_of_ok hbody))))

/-- A table is read locally up to its brace. -/
theorem local_tableOpening : Local tableOpening :=
  (local_qualifiedName _).bind fun _ => local_tableAlias.bind fun _ => local_settings.bind fun _ =>
    (local_symbol _ _).map

/-- What a table is by its items does not depend on their references. -/
theorem tableOf_bare (schemaName : Option String) (tableName : String) (aliasName : Option String)
    (ss : List Setting) (items : List TableItem) :
    tableOf schemaName tableName aliasName ss (items.map TableItem.bare) =
      tableOf schemaName tableName aliasName ss items := by
  have hnote : (fun item : TableItem => item.bare.note?) = (·.note?) := by
    funext item; cases item <;> rfl
  have hfield : (fun item : TableItem => item.bare.field?) = (·.field?) := by
    funext item; cases item <;> rfl
  simp [tableOf, List.filterMap_map, hnote, hfield]

/-- Items that have been detached make no references. -/
theorem flatMap_references_bareItems (items : List TableItem) :
    (items.map TableItem.bare).flatMap (·.references) = [] := by
  rw [List.flatMap_map, List.flatMap_eq_nil_iff]
  intro item _
  cases item <;> rfl

/-- What stays of a table is the same table. -/
theorem exists_detachTable {ts rest : List Located} {d : Declarations}
    (h : table ts = .ok (d, rest)) : ∃ x, detachTable ts = .ok (x, rest) ∧
      DeclareReferences x.references d.references ∧
      table x.kept = .ok ({ tables := d.tables }, []) ∧ d.enumerations = [] := by
  obtain ⟨schemaName, tableName, aliasName, ss, items, mid, hhead, hbody, rfl⟩ := table_eq_ok.1 h
  have hitems : Detaches never ((tableItem schemaName tableName).beforeEnd .closeTable)
      TableItem.bare TableItem.references (detachItem schemaName tableName) := by
    intro ts item rest hok
    cases ts with
    | nil => contradiction
    | cons t ts =>
      obtain ⟨x, hx, hrefs, hkept⟩ := detaches_tableItem hok
      refine ⟨x, hx, hrefs, fun rest' hrest' => ?_⟩
      obtain ⟨hagain, halike⟩ := hkept hrest'
      refine ⟨?_, halike⟩
      generalize x.kept ++ rest' = ts' at hagain halike
      cases ts' with
      | nil => exact absurd halike.1 (by simp)
      | cons t' ts' => exact hagain
  obtain ⟨x, hx, hrefs, hkept⟩ := hitems.until (advances_detachItem _ _) hbody
  obtain ⟨hagain, halike⟩ := hkept rfl
  obtain ⟨head, rfl, hlocal⟩ := (local_tableOpening ts).ok hhead
  have hdetach : detachTable (head ++ mid) = .ok (⟨head ++ x.kept, x.references⟩, rest) :=
    (bind_of_ok (taken_of_append head hhead)).trans (bind_of_ok hx)
  refine ⟨_, hdetach, hrefs, ?_, rfl⟩
  have htable : table (head ++ x.kept ++ rest) =
      .ok ({ tables := [tableOf schemaName tableName aliasName ss items] }, rest) := by
    rw [List.append_assoc]
    refine table_eq_ok.2 ⟨schemaName, tableName, aliasName, ss, _, _, hlocal _ halike, hagain, ?_⟩
    rw [tableOf_bare, flatMap_references_bareItems]
  -- Behind the closing brace a table takes nothing, so what is left may as well be nothing.
  have hends : Ends (fun _ => True) table := ends_table
  obtain ⟨taken, htaken, halone⟩ := hends.exists_taken trivial htable trivial
  rw [List.append_cancel_right htaken]
  exact halone

end SchemaDiagram.Grammar
