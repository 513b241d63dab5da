import SchemaDiagram.Proofs.Document.Grouping
import SchemaDiagram.Proofs.Document.Outline
import SchemaDiagram.Proofs.Grammar.Viable

/-!
# SchemaDiagram.Proofs.Document.RoundTrip

What is read of a written outline is the outline.

There is one lemma `p_of_row` or `p_of_rows` for each parser `p`: on the tokens of a part of an
outline, `p` gives what the part means and leaves what follows.  The conditions on what follows are
those under which the parser does not go on: no point behind a name, no brackets behind a type, and
behind a line only what is `Below` it.
-/

namespace SchemaDiagram.Outline

open SchemaDiagram.Parser Grammar
open Rule (IsName BeginsType)
open Document (Path Enumeration)

variable {n : Nat} {ts mid rest : List Located}

/-! ## What follows a line -/

/-- The first token of a line is the next token. -/
theorem stops_of_row {t : Token} {line : List Token} (h : Row n (t :: line) ts rest)
    {test : Token → Bool} (ht : test t = false) : Stops test ts := by
  obtain ⟨p, _, rfl, _⟩ := row_cons.1 h
  exact stops_cons.2 ht

/-- What can follow a line: nothing, or a name or a closing brace further down. -/
def Below (n : Nat) (ts : List Located) : Prop :=
  Fresh ts ∧ ∀ t ∈ ts.head?, n < t.position.line

/-- A line that begins with a name or a closing brace is below the one before it. -/
theorem below_of_row {t : Token} {line : List Token} (h : Row (n + 1) (t :: line) ts rest)
    (ht : IsName t ∨ t = .symbol .closeBrace) : Below n ts := by
  obtain ⟨p, _, rfl, hp, _⟩ := row_cons.1 h
  refine ⟨fresh_cons.2 ht, ?_⟩
  rintro _ ⟨⟩
  exact hp ▸ Nat.lt_succ_self n

/-- Lines that begin with names, and a closing brace. -/
theorem below_of_rows {xs : List X} {line : X → List Token}
    (hline : ∀ x, ∃ name more, line x = name :: more ∧ IsName name)
    (h : Rows (n + 1) (xs.map line ++ [[.symbol .closeBrace]]) ts rest) : Below n ts := by
  cases xs with
  | nil =>
    obtain ⟨_, hrow, _⟩ := h
    exact below_of_row hrow (.inr rfl)
  | cons x xs =>
    obtain ⟨_, hrow, _⟩ := h
    obtain ⟨name, more, heq, hname⟩ := hline x
    rw [heq] at hrow
    exact below_of_row hrow (.inl hname)

/-! ## Names and paths -/

/-- A table's name is read up to a token other than a point. -/
theorem qualifiedName_of_row {e : Expected} {schemaName : Option String} {name : String}
    (h : Row n (qualifiedTokens schemaName name) ts rest) (hs : Stops (is .dot) rest) :
    qualifiedName e ts = .ok ((schemaName, name), rest) := by
  cases schemaName with
  | none =>
    simp only [qualifiedTokens, row_cons, row_nil] at h
    obtain ⟨p, _, rfl, _, rfl⟩ := h
    rw [qualifiedName, bind_of_ok (name_of_some rfl), accept_then_of_stops hs]
    rfl
  | some schema =>
    simp only [qualifiedTokens, row_cons, row_nil] at h
    obtain ⟨p, _, rfl, _, q, _, rfl, _, r, _, rfl, _, rfl⟩ := h
    rw [qualifiedName, bind_of_ok (name_of_some rfl), accept_then_of_true rfl,
      bind_of_ok (name_of_some rfl)]
    rfl

/-- Names that each follow a separator are read up to tokens that no more of them begin. -/
theorem namesAfter_of_row {separator : Symbol} {stop : Token → Bool} {e : Expected}
    {names : List String} (hstop : ∀ name, stop (.quoted name) = false)
    (h : Row n (behind separator names) ts rest)
    (hrest : namesAfter separator stop e rest = .ok ([], rest)) :
    namesAfter separator stop e ts = .ok (names, rest) := by
  induction names generalizing ts with
  | nil =>
    rw [← row_nil.1 h, hrest]
  | cons name names ih =>
    have hrow : Row n (.symbol separator :: .quoted name :: behind separator names) ts rest := h
    simp only [row_cons] at hrow
    obtain ⟨p, _, rfl, _, q, ts, rfl, _, hnames⟩ := hrow
    rw [namesAfter_of_name (is_eq_true.2 rfl) (hstop name) rfl, bind_of_ok (ih hnames)]
    rfl

/-- A list of fields in parentheses. -/
theorem fieldList_of_row {first : String} {more : List String}
    (h : Row n (.symbol .dot :: .symbol .openParen :: .quoted first ::
      (behind .comma more ++ [.symbol .closeParen])) ts rest) :
    fieldList ts = .ok (some (first :: more), rest) := by
  simp only [row_cons, row_append, row_nil] at h
  obtain ⟨p, _, rfl, _, q, _, rfl, _, r, _, rfl, _, _, hmore, u, _, rfl, _, rfl⟩ := h
  have hclose : namesAfter .comma (fun _ => false) .fieldName (⟨.symbol .closeParen, u⟩ :: rest) =
      .ok ([], ⟨.symbol .closeParen, u⟩ :: rest) := namesAfter_of_stops (stops_cons.2 rfl)
  rw [fieldList, acceptBoth_then_of_true rfl rfl, bind_of_ok (name_of_some rfl),
    bind_of_ok (namesAfter_of_row (fun _ => rfl) hmore hclose), bind_of_ok (symbol_of_eq rfl)]
  rfl

/-- Without a point there is no list of fields. -/
theorem fieldList_of_stops (hs : Stops (is .dot) ts) : fieldList ts = .ok (none, ts) := by
  rw [fieldList, acceptBoth_then_of_not (not_beginsBoth_of_stops hs)]
  rfl

/-- A path is its names and what comes of the list of fields behind them. -/
theorem path_of_names {first : String} (more : List String) {fieldNames : Option (List String)}
    (h : Row n (.quoted first :: behind .dot more) ts mid)
    (hmid : namesAfter .dot (is .openParen) .pathName mid = .ok ([], mid))
    (hlist : fieldList mid = .ok (fieldNames, rest)) :
    path ts = .ok (.ofNames first more fieldNames, rest) := by
  obtain ⟨p, ts, rfl, _, hmore⟩ := row_cons.1 h
  rw [path, bind_of_ok (name_of_some rfl),
    bind_of_ok (namesAfter_of_row (fun _ => rfl) hmore hmid), bind_of_ok hlist]
  rfl

/-- An endpoint is read up to a token other than a point. -/
theorem path_of_row {e : Endpoint} (h : Row n e.tokens ts rest) (hs : Stops (is .dot) rest) :
    path ts = .ok (e.meaning, rest) := by
  have hrest : namesAfter .dot (is .openParen) .pathName rest = .ok ([], rest) :=
    namesAfter_of_stops hs
  have hnone := fieldList_of_stops hs
  cases e with
  | table name => exact path_of_names [] h hrest hnone
  | fields schemaName tableName first more =>
    cases more with
    | nil =>
      cases schemaName with
      | none => exact path_of_names [first] h hrest hnone
      | some schema => exact path_of_names [tableName, first] h hrest hnone
    | cons second more =>
      obtain ⟨mid, hnames, hlist⟩ := row_append.1 h
      have hsome := fieldList_of_row hlist
      have hmid : namesAfter .dot (is .openParen) .pathName mid = .ok ([], mid) := by
        simp only [row_cons] at hlist
        obtain ⟨p, _, rfl, _, q, _, rfl, _⟩ := hlist
        exact namesAfter_of_begins rfl
      cases schemaName with
      | none => exact path_of_names [] hnames hmid hsome
      | some schema => exact path_of_names [tableName] hnames hmid hsome

/-! ## Settings -/

/-- The key of a setting is read as the key that the setting means. -/
theorem key_of_setting (s : Setting) : Rule.key s.key = s.meaning.key := by
  cases s <;> simp only [Setting.key, Setting.meaning] <;> decide

/-- No setting of an outline is read as a reference. -/
theorem key_ne_ref (s : Setting) : Rule.key s.key ≠ "ref" := by
  rw [key_of_setting]
  cases s <;> simp [Setting.meaning]

/-- A setting begins with a word. -/
theorem tokens_of_setting (s : Setting) : ∃ word more, s.tokens = .identifier word :: more := by
  cases s <;> exact ⟨_, _, rfl⟩

/-- What is read of a setting's value is the text that its token stands for. -/
theorem value_of_setting (s : Setting) :
    s.value? = none ∧ s.meaning.value = none ∨
      ∃ t text, s.value? = some t ∧ t.literal? = some text ∧ s.meaning.value = some (.text text) := by
  cases s with
  | primaryKey | unique | notNull | increment => exact .inl ⟨rfl, rfl⟩
  | default | note => exact .inr ⟨_, _, rfl, rfl, rfl⟩
  | headerColor color => cases color <;> exact .inr ⟨_, _, rfl, rfl, rfl⟩

/-- A literal behind the colon is the value of a setting. -/
theorem settingValue_of_literal {key text : String} {t : Located} (hkey : key ≠ "ref")
    (ht : t.token.literal? = some text) : settingValue key (t :: ts) = .ok (.text text, ts) := by
  have htext : settingText (t :: ts) = .ok (text, ts) := by
    rw [settingText, bind_of_ok (take?_of_some ht)]
    rfl
  rw [settingValue, if_neg hkey, bind_of_ok htext]
  rfl

/-- The value of a setting is read, or its absence. -/
theorem optionalValue_of_row {s : Setting} (h : Row n s.valueTokens ts rest)
    (hs : Stops (is .colon) rest) :
    optionalValue (Rule.key s.key) ts = .ok (s.meaning.value, rest) := by
  rcases value_of_setting s with ⟨hnone, hmeaning⟩ | ⟨t, text, hsome, ht, hmeaning⟩
  · rw [Setting.valueTokens, hnone] at h
    rw [← row_nil.1 h, optionalValue, accept_then_of_stops hs, hmeaning]
    rfl
  · rw [Setting.valueTokens, hsome] at h
    simp only [row_cons, row_nil] at h
    obtain ⟨p, _, rfl, _, q, _, rfl, _, rfl⟩ := h
    have hvalue : settingValue (Rule.key s.key) (⟨t, q⟩ :: rest) = .ok (.text text, rest) :=
      settingValue_of_literal (key_ne_ref s) ht
    rw [optionalValue, accept_then_of_true rfl, bind_of_ok hvalue, hmeaning]
    rfl

/-- Behind its key a setting goes on with a colon, or not at all. -/
theorem stops_of_valueTokens {s : Setting} (h : Row n s.valueTokens ts rest)
    {test : Token → Bool} (hcolon : test (.symbol .colon) = false) (hs : Stops test rest) :
    Stops test ts := by
  unfold Setting.valueTokens at h
  split at h
  · exact stops_of_row h hcolon
  · rw [← row_nil.1 h]
    exact hs

/-- A setting is read up to the comma or the bracket behind it. -/
theorem setting_of_row {s : Setting} (h : Row n s.tokens ts mid) (hends : EndsSetting mid)
    (hend : settingEnd mid = .ok ((), rest)) :
    Grammar.setting ts = .ok (s.meaning, rest) := by
  obtain ⟨after, ⟨taken, rfl, hmap, _⟩, hvalue⟩ := row_append.1 h
  have hne : s.key ≠ [] := by cases s <;> simp [Setting.key]
  have hword : Stops (fun t => t.word?.isSome) after :=
    stops_of_valueTokens hvalue rfl (hends.stops rfl rfl)
  have hkey := settingKey_of_words hne ⟨taken, rfl, hmap⟩ hword
  have hcolon : Stops (is .colon) mid := hends.stops rfl rfl
  rw [Grammar.setting, bind_of_ok hkey, bind_of_ok (optionalValue_of_row hvalue hcolon),
    bind_of_ok hend, key_of_setting]
  rfl

/-- A line that goes on with a setting does not close the list. -/
theorem begins_of_setting_row {s : Setting} {line : List Token}
    (h : Row n (s.tokens ++ line) ts rest) : begins .closeBracket ts = false := by
  obtain ⟨word, words, heq⟩ := tokens_of_setting s
  rw [heq] at h
  exact begins_eq_false.2 (stops_of_row h rfl)

/-- The first of some settings and those behind it are read up to the closing bracket. -/
theorem repeatUntil_setting_of_row {s : Setting} {more : List Setting}
    (h : Row n (s.tokens ++ (Setting.moreTokens more ++ [.symbol .closeBracket])) ts rest) :
    ∃ p, repeatUntil (begins .closeBracket) Grammar.setting advances_setting ts =
      .ok ((s :: more).map (·.meaning), ⟨.symbol .closeBracket, p⟩ :: rest) := by
  have hbegins := begins_of_setting_row h
  obtain ⟨mid, hs, hmore⟩ := row_append.1 h
  induction more generalizing s ts mid with
  | nil =>
    simp only [Setting.moreTokens, List.flatMap_nil, List.nil_append, row_cons, row_nil] at hmore
    obtain ⟨p, _, rfl, _, rfl⟩ := hmore
    have hend : settingEnd (⟨.symbol .closeBracket, p⟩ :: rest) =
        .ok ((), ⟨.symbol .closeBracket, p⟩ :: rest) := rfl
    have hsetting := setting_of_row hs ⟨_, _, rfl, .inr rfl⟩ hend
    have hclose : begins .closeBracket (⟨.symbol .closeBracket, p⟩ :: rest) = true := rfl
    refine ⟨p, ?_⟩
    rw [repeatUntil_of_ok hbegins hsetting, bind_of_ok (repeatUntil_of_stop hclose)]
    rfl
  | cons second more ih =>
    have hrow : Row n (.symbol .comma ::
        (second.tokens ++ (Setting.moreTokens more ++ [.symbol .closeBracket]))) mid rest := by
      simpa [Setting.moreTokens] using hmore
    obtain ⟨p, after, rfl, _, hafter⟩ := row_cons.1 hrow
    have hend : settingEnd (⟨.symbol .comma, p⟩ :: after) = .ok ((), after) := rfl
    have hsetting := setting_of_row hs ⟨_, _, rfl, .inl rfl⟩ hend
    obtain ⟨mid, hs, hmore⟩ := row_append.1 hafter
    obtain ⟨q, hq⟩ := ih hafter (begins_of_setting_row hafter) mid hs hmore
    refine ⟨q, ?_⟩
    rw [repeatUntil_of_ok hbegins hsetting, bind_of_ok hq]
    rfl

/-- Without an opening bracket there are no settings. -/
theorem settings_of_stops (hs : Stops (is .openBracket) ts) :
    Grammar.settings ts = .ok ([], ts) := by
  rw [Grammar.settings, accept_then_of_stops hs]
  rfl

/-- Settings are read if there are any, in front of tokens that are none. -/
theorem settings_of_row {settings : List Setting} (h : Row n (Setting.listTokens settings) ts rest)
    (hs : Stops (is .openBracket) rest) :
    Grammar.settings ts = .ok (settings.map (·.meaning), rest) := by
  cases settings with
  | nil =>
    rw [← row_nil.1 h]
    exact settings_of_stops hs
  | cons s more =>
    obtain ⟨p, after, rfl, _, hafter⟩ := row_cons.1 h
    obtain ⟨q, hq⟩ := repeatUntil_setting_of_row hafter
    rw [Grammar.settings, accept_then_of_true rfl, settingsBody, manyUntil, bind_of_ok hq,
      bind_of_ok (accept_of_true rfl)]
    rfl

/-! ## Types -/

/-- What can follow a type on the given line. -/
structure EndsType (n : Nat) (ts : List Located) : Prop where
  not_beginsType : ¬ BeginsType n ts
  stops_dot : Stops (is .dot) ts
  stops_openParen : Stops (is .openParen) ts
  not_brackets : ¬ BeginsBoth (is .openBracket) (is .closeBracket) ts

/-- The settings of a field end its type: the opening bracket is not that of an array. -/
theorem endsType_of_row {settings : List Setting}
    (h : Row n (Setting.listTokens settings) ts rest) (hrest : Below n rest) : EndsType n ts := by
  cases settings with
  | nil =>
    rw [← row_nil.1 h]
    have hbracket : Stops (is .openBracket) rest := hrest.1.stops (by decide)
    refine ⟨?_, hrest.1.stops (by decide), hrest.1.stops (by decide),
      not_beginsBoth_of_stops hbracket⟩
    rintro ⟨t, after, rfl, _, hline⟩
    exact absurd (hrest.2 t rfl) (by omega)
  | cons s more =>
    obtain ⟨p, after, rfl, _, hafter⟩ := row_cons.1 h
    refine ⟨?_, stops_cons.2 rfl, stops_cons.2 rfl, ?_⟩
    · rintro ⟨t, _, ⟨⟩, ⟨_, ht⟩ | ⟨_, ht⟩, _⟩ <;> contradiction
    · rintro ⟨t, u, _, ⟨⟩, _, hu⟩
      have hbegins := begins_of_setting_row hafter
      rw [begins, hu] at hbegins
      contradiction

/-- The second part of a type's name is read, or its absence. -/
theorem typeQualifier_of_row {e : TypeExpression} (h : Row n e.qualifierTokens ts rest)
    (hs : Stops (is .dot) rest) :
    typeQualifier ts = .ok ((e.qualifier.map ("." ++ ·)).getD "", rest) := by
  unfold TypeExpression.qualifierTokens at h
  split at h
  · rename_i name heq
    simp only [row_cons, row_nil] at h
    obtain ⟨p, _, rfl, _, q, _, rfl, _, rfl⟩ := h
    rw [typeQualifier, accept_then_of_true rfl, bind_of_ok (name_of_some rfl), heq]
    rfl
  · rename_i heq
    rw [← row_nil.1 h, typeQualifier, accept_then_of_stops hs, heq]
    rfl

/-- An argument of a type is read from the token that writes it. -/
theorem ofToken?_token (a : Argument) : Grammar.Argument.ofToken? a.token = some a.meaning := by
  cases a <;> rfl

/-- Arguments are read up to a token that is none. -/
theorem takeAll_of_row {args : List Argument} (h : Row n (args.map Argument.token) ts rest)
    (hs : Stops (fun t => (Grammar.Argument.ofToken? t).isSome) rest) :
    takeAll Grammar.Argument.ofToken? ts = .ok (args.map (·.meaning), rest) := by
  obtain ⟨taken, rfl, hmap, _⟩ := h
  refine takeAll_append ?_ hs
  calc taken.map (fun t => Grammar.Argument.ofToken? t.token)
    _ = (taken.map (·.token)).map Grammar.Argument.ofToken? := by rw [List.map_map]; rfl
    _ = (args.map (·.meaning)).map some := by
      rw [hmap, List.map_map, List.map_map]
      exact List.map_congr_left fun a _ => ofToken?_token a

/-- The arguments of a type are read between their parentheses, or their absence. -/
theorem typeArguments_of_row {e : TypeExpression} (h : Row n e.argumentTokens ts rest)
    (hs : Stops (is .openParen) rest) : typeArguments ts = .ok (e.argumentText, rest) := by
  unfold TypeExpression.argumentTokens at h
  split at h
  · rename_i args heq
    simp only [row_cons, row_append, row_nil] at h
    obtain ⟨p, _, rfl, _, _, hargs, q, _, rfl, _, rfl⟩ := h
    rw [typeArguments, accept_then_of_true rfl,
      bind_of_ok (takeAll_of_row hargs (stops_cons.2 rfl)), bind_of_ok (symbol_of_eq rfl),
      TypeExpression.argumentText, heq]
    rfl
  · rename_i heq
    rw [← row_nil.1 h, typeArguments, accept_then_of_stops hs, TypeExpression.argumentText, heq]
    rfl

/-- The brackets of an array are read, or their absence. -/
theorem acceptBrackets_of_row {e : TypeExpression} (h : Row n e.arrayTokens ts rest)
    (hnot : ¬ BeginsBoth (is .openBracket) (is .closeBracket) rest) :
    acceptBoth (is .openBracket) (is .closeBracket) ts = .ok (e.isArray, rest) := by
  unfold TypeExpression.arrayTokens at h
  split at h
  · rename_i harray
    simp only [row_cons, row_nil] at h
    obtain ⟨p, _, rfl, _, q, _, rfl, _, rfl⟩ := h
    rw [harray]
    exact acceptBoth_of_true rfl rfl
  · rename_i harray
    rw [← row_nil.1 h, eq_false_of_ne_true harray]
    exact acceptBoth_of_not hnot

/-- The parts of a type that may be left out do not begin like the parts behind them. -/
theorem stops_of_arrayTokens {e : TypeExpression} (h : Row n e.arrayTokens ts rest)
    {test : Token → Bool} (hopen : test (.symbol .openBracket) = false) (hs : Stops test rest) :
    Stops test ts := by
  unfold TypeExpression.arrayTokens at h
  split at h
  · exact stops_of_row h hopen
  · rw [← row_nil.1 h]
    exact hs

/-- Behind its first word a type is read part by part, up to a token that ends it. -/
theorem typeExpression_of_row {e : TypeExpression}
    (h : Row n (e.qualifierTokens ++ (e.argumentTokens ++ e.arrayTokens)) ts rest)
    (hrest : EndsType n rest) :
    typeExpression e.first.text ts = .ok (e.meaning, rest) := by
  simp only [row_append] at h
  obtain ⟨mid, hqualifier, after, hargs, harray⟩ := h
  have hparen := stops_of_arrayTokens harray rfl hrest.stops_openParen
  have hdot : Stops (is .dot) mid := by
    have hafter := stops_of_arrayTokens harray rfl hrest.stops_dot
    unfold TypeExpression.argumentTokens at hargs
    split at hargs
    · exact stops_of_row hargs rfl
    · rw [← row_nil.1 hargs]
      exact hafter
  rw [typeExpression, bind_of_ok (typeQualifier_of_row hqualifier hdot),
    bind_of_ok (typeArguments_of_row hargs hparen),
    bind_of_ok (acceptBrackets_of_row harray hrest.not_brackets), TypeExpression.meaning]
  cases e.argumentText <;> rfl

/-- A type on the line of its field is read: between quotes, as an expression, or as absent. -/
theorem fieldType_of_row {t : FieldType} (h : Row n t.tokens ts rest) (hrest : EndsType n rest) :
    fieldType (some n) ts = .ok (t.meaning, rest) := by
  cases t with
  | absent =>
    rw [← row_nil.1 h]
    exact fieldType_of_not hrest.not_beginsType
  | quoted name =>
    simp only [FieldType.tokens, row_cons, row_nil] at h
    obtain ⟨p, _, rfl, hp, rfl⟩ := h
    exact fieldType_of_quoted rfl hp _
  | expression e =>
    obtain ⟨p, after, rfl, hp, hafter⟩ := row_cons.1 h
    rw [fieldType_of_word rfl hp]
    exact typeExpression_of_row hafter hrest

/-! ## Fields -/

/-- A field has what its settings say. -/
theorem foldl_applyTo (f : Field) :
    (f.settings.map (·.meaning)).foldl (fun g s => s.applyTo g)
      { name := f.name, type := f.type.meaning } = f.meaning := by
  obtain ⟨name, type, isPrimaryKey, isUnique, isNotNull, isIncrement, defaultValue, note⟩ := f
  cases isPrimaryKey <;> cases isUnique <;> cases isNotNull <;> cases isIncrement <;>
    cases defaultValue <;> cases note <;> rfl

/-- No setting of an outline is a reference. -/
theorem filterMap_reference? (settings : List Setting) (source : Path) :
    (settings.map (·.meaning)).filterMap (·.reference? source) = [] := by
  rw [List.filterMap_map, List.filterMap_eq_nil_iff]
  intro s _
  cases s <;> rfl

/-- A field is read from its line, up to what is below it. -/
theorem field_of_row {f : Field} (schemaName : Option String) (tableName : String)
    (h : Row n f.line ts rest) (hrest : Below n rest) :
    field schemaName tableName ts = .ok ((f.meaning, []), rest) := by
  obtain ⟨p, after, rfl, hp, hafter⟩ := row_cons.1 h
  obtain ⟨mid, htype, hsettings⟩ := row_append.1 hafter
  have hbracket : Stops (is .openBracket) rest := hrest.1.stops (by decide)
  have hfieldType := fieldType_of_row htype (endsType_of_row hsettings hrest)
  rw [field, line?_then, bind_of_ok (name_of_some rfl)]
  show (fieldType (some p.line) >>= _) after = _
  rw [hp, bind_of_ok hfieldType, bind_of_ok (settings_of_row hsettings hbracket),
    foldl_applyTo, filterMap_reference?]
  rfl

/-- A field is an item, whatever its name is: a name between quotes is no keyword. -/
theorem tableItem_of_row {f : Field} (schemaName : Option String) (tableName : String)
    (h : Row n f.line ts rest) (hrest : Below n rest) :
    tableItem schemaName tableName ts = .ok (.field f.meaning [], rest) := by
  have hfield := field_of_row schemaName tableName h hrest
  obtain ⟨p, after, rfl, _⟩ := row_cons.1 h
  have hnot (k : Keyword) (s : Symbol) :
      ¬ BeginsBoth (·.isKeyword k) (is s) (⟨.quoted f.name, p⟩ :: after) :=
    not_beginsBoth_of_stops (stops_cons.2 rfl)
  rw [tableItem, acceptBoth_then_of_not (hnot .note .colon),
    acceptBoth_then_of_not (hnot .note .openBrace),
    acceptBoth_then_of_not (hnot .indexes .openBrace), bind_of_ok hfield]
  rfl

/-! ## Bodies -/

section

variable {α X : Type} {item : Parser α} {hi : Advances item} {xs : List X} {line : X → List Token}
variable {value : X → α}

/-- The lines of a body are read one by one, and the closing brace is left. -/
theorem repeatUntil_of_rows (hline : ∀ x, ∃ name more, line x = name :: more ∧ IsName name)
    (hitem : ∀ {n ts rest} x, Row n (line x) ts rest → Below n rest →
      item ts = .ok (value x, rest))
    (h : Rows n (xs.map line ++ [[.symbol .closeBrace]]) ts rest) :
    ∃ p, repeatUntil (begins .closeBrace) item hi ts =
      .ok (xs.map value, ⟨.symbol .closeBrace, p⟩ :: rest) := by
  induction xs generalizing n ts with
  | nil =>
    have hrow := rows_singleton.1 h
    simp only [row_cons, row_nil] at hrow
    obtain ⟨p, _, rfl, _, rfl⟩ := hrow
    have hclose : begins .closeBrace (⟨.symbol .closeBrace, p⟩ :: rest) = true := rfl
    exact ⟨p, repeatUntil_of_stop hclose⟩
  | cons x xs ih =>
    obtain ⟨mid, hrow, hrows⟩ := h
    have hbegins : begins .closeBrace ts = false := by
      obtain ⟨name, more, heq, hname⟩ := hline x
      rw [heq] at hrow
      exact begins_eq_false.2 (stops_of_row hrow (is_of_isName hname))
    have hx := hitem x hrow (below_of_rows hline hrows)
    obtain ⟨p, hp⟩ := ih hrows
    refine ⟨p, ?_⟩
    rw [repeatUntil_of_ok hbegins hx, bind_of_ok hp]
    rfl

/-- The lines of a body are read item by item, each up to what is below its line. -/
theorem manyUntil_of_rows (hline : ∀ x, ∃ name more, line x = name :: more ∧ IsName name)
    (hitem : ∀ {n ts rest} x, Row n (line x) ts rest → Below n rest →
      item ts = .ok (value x, rest))
    (h : Rows n (xs.map line ++ [[.symbol .closeBrace]]) ts rest) :
    manyUntil .closeBrace item hi ts = .ok (xs.map value, rest) := by
  obtain ⟨p, hp⟩ := repeatUntil_of_rows hline hitem h
  rw [manyUntil, bind_of_ok hp, bind_of_ok (accept_of_true rfl)]
  rfl

end

/-! ## Declarations -/

/-- The other name of a table is read, or its absence. -/
theorem tableAlias_of_row {t : Table} (h : Row n t.aliasTokens ts rest)
    (hs : Stops (·.isKeyword .as) rest) : tableAlias ts = .ok (t.aliasName, rest) := by
  unfold Table.aliasTokens at h
  split at h
  · rename_i name heq
    simp only [row_cons, row_nil] at h
    obtain ⟨p, _, rfl, _, q, _, rfl, _, rfl⟩ := h
    rw [tableAlias, accept_then_of_true (isKeyword_spelling .as), bind_of_ok (name_of_some rfl), heq]
    rfl
  · rename_i heq
    rw [← row_nil.1 h, tableAlias, accept_then_of_stops hs, heq]
    rfl

/-- Behind the name of a table comes its alias, its settings or its body. -/
theorem stops_of_listTokens {settings : List Setting} {line : List Token} {t : Token}
    (h : Row n (Setting.listTokens settings ++ t :: line) ts rest)
    {test : Token → Bool} (hopen : test (.symbol .openBracket) = false) (ht : test t = false) :
    Stops test ts := by
  cases settings with
  | nil => exact stops_of_row h ht
  | cons s more => exact stops_of_row h hopen

/-- The item that a field is. -/
def Field.item (f : Field) : TableItem := .field f.meaning []

/-- The lines of a table's fields are read as its items. -/
theorem tableBody_of_rows {fields : List Field} (schemaName : Option String) (tableName : String)
    (h : Rows n (fields.map Field.line ++ [[.symbol .closeBrace]]) ts rest) :
    tableBody schemaName tableName ts = .ok (fields.map (·.item), rest) := by
  refine manyUntil_of_rows (fun f => ⟨_, _, rfl, .inr ⟨f.name, rfl⟩⟩) (fun f hrow hrest => ?_) h
  have hitem := tableItem_of_row schemaName tableName hrow hrest
  obtain ⟨p, after, rfl, _⟩ := row_cons.1 hrow
  exact hitem

/-- A body of fields has no note. -/
theorem filterMap_note? (fields : List Field) :
    (fields.map (·.item)).filterMap (·.note?) = [] := by
  rw [List.filterMap_map, List.filterMap_eq_nil_iff]
  exact fun _ _ => rfl

/-- A body of fields has these fields. -/
theorem filterMap_field? (fields : List Field) :
    (fields.map (·.item)).filterMap (·.field?) = fields.map (·.meaning) := by
  rw [List.filterMap_map, ← List.filterMap_eq_map]
  rfl

/-- The fields of an outline make no references. -/
theorem flatMap_references (fields : List Field) :
    (fields.map (·.item)).flatMap (·.references) = [] := by
  rw [List.flatMap_map, List.flatMap_eq_nil_iff]
  exact fun _ _ => rfl

/-- The colour of a table's header is read back from its settings. -/
theorem lastText_headercolor (t : Table) :
    Grammar.Setting.lastText "headercolor" (t.settings.map (·.meaning)) =
      t.headerColor.map (·.text) := by
  obtain ⟨name, schemaName, aliasName, headerColor, note, fields⟩ := t
  cases headerColor <;> cases note <;> rfl

/-- The note of a table is read back from its settings. -/
theorem lastText_note (t : Table) :
    Grammar.Setting.lastText "note" (t.settings.map (·.meaning)) = t.note := by
  obtain ⟨name, schemaName, aliasName, headerColor, note, fields⟩ := t
  cases headerColor <;> cases note <;> rfl

/-- A table is read from the line that opens it and the lines of its body. -/
theorem table_of_rows {t : Table}
    (hrow : Row n (qualifiedTokens t.schemaName t.name ++
      (t.aliasTokens ++ (Setting.listTokens t.settings ++ [.symbol .openBrace]))) ts mid)
    (hrows : Rows (n + 1) (t.fields.map Field.line ++ [[.symbol .closeBrace]]) mid rest) :
    table ts = .ok ({ tables := [t.meaning] }, rest) := by
  obtain ⟨behindName, hname, hrow⟩ := row_append.1 hrow
  obtain ⟨behindAlias, halias, hrow⟩ := row_append.1 hrow
  have has : Stops (·.isKeyword .as) behindAlias := stops_of_listTokens hrow rfl rfl
  have hdot : Stops (is .dot) behindName := by
    unfold Table.aliasTokens at halias
    split at halias
    · exact stops_of_row halias rfl
    · rw [← row_nil.1 halias]
      exact stops_of_listTokens hrow rfl rfl
  obtain ⟨_, hsettings, hopen⟩ := row_append.1 hrow
  simp only [row_cons, row_nil] at hopen
  obtain ⟨p, _, rfl, _, rfl⟩ := hopen
  rw [table, bind_of_ok (qualifiedName_of_row hname hdot)]
  show (tableAlias >>= _) behindName = _
  rw [bind_of_ok (tableAlias_of_row halias has),
    bind_of_ok (settings_of_row hsettings (stops_cons.2 rfl)), bind_of_ok (symbol_of_eq rfl),
    bind_of_ok (tableBody_of_rows t.schemaName t.name hrows), filterMap_note?, filterMap_field?,
    flatMap_references, lastText_headercolor, lastText_note]
  rfl

/-- A value of an enumeration is read from its line. -/
theorem enumValue_of_row {value : String} (h : Row n [.quoted value] ts rest)
    (hrest : Below n rest) : enumValue ts = .ok (value, rest) := by
  simp only [row_cons, row_nil] at h
  obtain ⟨p, _, rfl, _, rfl⟩ := h
  have hbracket : Stops (is .openBracket) rest := hrest.1.stops (by decide)
  rw [enumValue, bind_of_ok (name_of_some rfl), bind_of_ok (settings_of_stops hbracket)]
  rfl

/-- An enumeration is read from the line that opens it and the lines of its values. -/
theorem enumeration_of_rows {e : Enumeration}
    (hrow : Row n (qualifiedTokens e.schemaName e.name ++ [.symbol .openBrace]) ts mid)
    (hrows : Rows (n + 1) (e.values.map (fun value => [.quoted value]) ++ [[.symbol .closeBrace]])
      mid rest) :
    enumeration ts = .ok (e, rest) := by
  obtain ⟨behindName, hname, hopen⟩ := row_append.1 hrow
  have hdot : Stops (is .dot) behindName := stops_of_row hopen rfl
  simp only [row_cons, row_nil] at hopen
  obtain ⟨p, _, rfl, _, rfl⟩ := hopen
  have hvalues : manyUntil .closeBrace enumValue advances_enumValue mid = .ok (e.values, rest) := by
    rw [← List.map_id' e.values]
    exact manyUntil_of_rows (fun value => ⟨_, [], rfl, .inr ⟨value, rfl⟩⟩)
      (fun _ => enumValue_of_row) hrows
  rw [enumeration, bind_of_ok (qualifiedName_of_row hname hdot)]
  show (symbol .openBrace .openEnum >>= _) _ = _
  rw [bind_of_ok (symbol_of_eq rfl), bind_of_ok hvalues]
  rfl

theorem relation?_sign (r : Document.Relation) : relation? (.symbol (sign r)) = some r := by
  cases r <;> rfl

theorem is_dot_sign (r : Document.Relation) : is .dot (.symbol (sign r)) = false := by
  cases r <;> rfl

/-- A reference is read from its two ends and the sign between them. -/
theorem reference_of_row {l : Link}
    (h : Row n (l.source.tokens ++ (.symbol (sign l.relation) :: l.target.tokens)) ts rest)
    (hrest : Fresh rest) : reference l.name ts = .ok (l.meaning, rest) := by
  obtain ⟨mid, hsource, hrow⟩ := row_append.1 h
  have hsign : Stops (is .dot) mid := stops_of_row hrow (is_dot_sign l.relation)
  obtain ⟨p, after, rfl, _, htarget⟩ := row_cons.1 hrow
  have hdot : Stops (is .dot) rest := hrest.stops (by decide)
  have hbracket : Stops (is .openBracket) rest := hrest.stops (by decide)
  rw [reference, bind_of_ok (path_of_row hsource hsign), relation,
    bind_of_ok (take_of_some (relation?_sign l.relation)),
    bind_of_ok (path_of_row htarget hdot), bind_of_ok (settings_of_stops hbracket)]
  rfl

/-- The name of a reference is read, or its absence. -/
theorem optionalName_of_row {l : Link} (h : Row n l.nameTokens ts rest)
    (hs : Stops (fun t => t.name?.isSome) rest) : take? Token.name? ts = .ok (l.name, rest) := by
  unfold Link.nameTokens at h
  split at h
  · rename_i name heq
    simp only [row_cons, row_nil] at h
    obtain ⟨p, _, rfl, _, rfl⟩ := h
    rw [heq]
    exact take?_of_some rfl
  · rename_i heq
    rw [← row_nil.1 h, heq]
    exact take?_of_stops hs

/-- A line of one reference is read behind its keyword. -/
theorem references_of_row {l : Link}
    (h : Row n (l.nameTokens ++ (.symbol .colon ::
      (l.source.tokens ++ (.symbol (sign l.relation) :: l.target.tokens)))) ts rest)
    (hrest : Fresh rest) : references ts = .ok ([l.meaning], rest) := by
  obtain ⟨mid, hname, hrow⟩ := row_append.1 h
  have hcolon : Stops (fun t => t.name?.isSome) mid := stops_of_row hrow rfl
  have hread := optionalName_of_row hname hcolon
  obtain ⟨p, after, rfl, _, hreference⟩ := row_cons.1 hrow
  rw [references, bind_of_ok hread, accept_then_of_true rfl,
    bind_of_ok (reference_of_row hreference hrest)]
  rfl

/-- A declaration is announced by its keyword, and by no other. -/
theorem not_isKeyword_spelling {j k : Keyword} (h : j ≠ k) :
    (Token.identifier j.spelling).isKeyword k = false :=
  isKeyword_of_ne (isKeyword_spelling j) h

/-- The lines of a declaration begin with its keyword. -/
theorem fresh_of_declaration_rows {d : Declaration} (h : Rows n d.lines ts rest) :
    ts ≠ [] ∧ Fresh ts := by
  have hkeyword {k : Keyword} {line : List Token} {mid : List Located}
      (hrow : Row n (.identifier k.spelling :: line) ts mid) : ts ≠ [] ∧ Fresh ts := by
    obtain ⟨p, _, rfl, _⟩ := row_cons.1 hrow
    exact ⟨List.cons_ne_nil _ _, fresh_cons.2 (.inl (.inl ⟨_, rfl⟩))⟩
  cases d with
  | table | reference | enumeration =>
    obtain ⟨_, hrow, _⟩ := h
    exact hkeyword hrow

/-- A declaration is read from its lines, whichever kind it is. -/
theorem declaration_of_rows {d : Declaration} (h : Rows n d.lines ts rest) (hrest : Fresh rest) :
    declaration ts = .ok (d.meaning, rest) := by
  cases d with
  | table t =>
    obtain ⟨mid, hrow, hrows⟩ := h
    obtain ⟨p, after, rfl, _, hheader⟩ := row_cons.1 hrow
    rw [declaration, accept_then_of_true (isKeyword_spelling .table)]
    exact table_of_rows hheader hrows
  | reference l =>
    have hrow := rows_singleton.1 h
    obtain ⟨p, after, rfl, _, hline⟩ := row_cons.1 hrow
    have hnot := stops_of_row hrow (not_isKeyword_spelling (k := .table) (by decide))
    rw [declaration, accept_then_of_stops hnot, accept_then_of_true (isKeyword_spelling .ref),
      bind_of_ok (references_of_row hline hrest)]
    rfl
  | enumeration e =>
    obtain ⟨mid, hrow, hrows⟩ := h
    obtain ⟨p, after, rfl, _, hheader⟩ := row_cons.1 hrow
    have hnotTable := stops_of_row hrow (not_isKeyword_spelling (k := .table) (by decide))
    have hnotRef := stops_of_row hrow (not_isKeyword_spelling (k := .ref) (by decide))
    rw [declaration, accept_then_of_stops hnotTable, accept_then_of_stops hnotRef,
      accept_then_of_true (isKeyword_spelling .enum), bind_of_ok (enumeration_of_rows hheader hrows)]
    rfl

/-! ## Outlines -/

/-- The declarations of an outline are read one by one, up to the end. -/
theorem repeatUntil_declaration_of_rows {ds : List Declaration} (h : Rows n (lines ds) ts []) :
    Fresh ts ∧ repeatUntil List.isEmpty declaration advances_declaration ts =
      .ok (ds.map (·.meaning), []) := by
  induction ds generalizing n ts with
  | nil =>
    have hts : ts = [] := h
    subst hts
    exact ⟨by simp [Fresh], repeatUntil_of_stop rfl⟩
  | cons d ds ih =>
    rw [lines, List.flatMap_cons] at h
    obtain ⟨mid, hd, hds⟩ := rows_append.1 h
    obtain ⟨hmid, hmore⟩ := ih hds
    obtain ⟨hne, hts⟩ := fresh_of_declaration_rows hd
    have hstop : ts.isEmpty = false := List.isEmpty_eq_false_iff.2 hne
    refine ⟨hts, ?_⟩
    rw [repeatUntil_of_ok hstop (declaration_of_rows hd hmid), bind_of_ok hmore]
    rfl

/-- The tokens of the lines of an outline are read as what it declares. -/
theorem declarations_of_rows {ds : List Declaration} (h : Rows n (lines ds) ts []) :
    declarations ts = .ok (declared ds, []) := by
  rw [declarations, bind_of_ok (repeatUntil_declaration_of_rows h).2, concat_meaning]
  rfl

/-- However it is spaced, a written outline is read without an error, and the document holds what
the outline declares: its tables, references and enumerations, each in its schema and there in the
order of the outline. -/
theorem exists_ofSource_write (spacing : Spacing) (ds : List Declaration) :
    ∃ doc, Document.ofSource (write spacing ds) = .ok doc ∧ doc.Holds (declared ds) := by
  obtain ⟨ts, hreads, hrows⟩ :=
    spacing.exists_reads_writeLines (fun line hline => writable_of_mem_lines line hline) 1
  have hsource : Lexeme.Reads .start (write spacing ds).toList ts := by
    rw [write, String.toList_ofList]
    exact hreads
  obtain ⟨htokens, hfault⟩ := Lexing.of_of_reads hsource
  refine ⟨.ofDeclarations (declared ds), ?_, Document.holds_ofDeclarations (declared ds)⟩
  rw [Document.ofSource]
  simp only [hfault, htokens, Document.Declarations.ofTokens, declarations_of_rows hrows]
  rfl

end SchemaDiagram.Outline
