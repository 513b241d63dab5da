import SchemaDiagram.Proofs.Grammar.Free
import SchemaDiagram.Proofs.Parser.Viable

/-!
# SchemaDiagram.Proofs.Grammar.Viable

Where a parser of the grammar fails, the tokens it has taken can still be completed.

There is one lemma `viable_p` for each parser `p`: when `p` fails, the tokens before the one it fails
at can be completed to the rule of the same name.  So no parser takes a token that cannot stand
there, and the token at fault is the first that cannot.

Settings are completed to at least one setting, since two brackets behind a type would belong to the
type, and the parts of a table up to its closing brace, since a field depends on what follows it.
-/

namespace SchemaDiagram.Grammar

open SchemaDiagram.Parser Phrase Rule

/-! ## Names and paths -/

theorem isWord_identifier (text : String) : IsWord (.identifier text) := ⟨text, rfl⟩

theorem isName_identifier (text : String) : IsName (.identifier text) := .inl ⟨text, rfl⟩

/-- Where no name stands, one can be put. -/
theorem viable_name (e : Expected) : Viable (Parser.name e) Rule.name :=
  viable_take (isName_identifier "a")

theorem completes_name : Completes Rule.name [] := completes_token (isName_identifier "a")

/-- A table's name that stops short can be completed, behind its point too. -/
theorem viable_qualifiedName (e : Expected) : Viable (qualifiedName e) qualified := by
  refine (viable_name e).bind (free_token _) derives_name
    (completes_optional.seq completes_empty) fun first => ?_
  refine Viable.accept_then (viable_name e).map (viable_pure (a := empty) _) ?_ ?_
  · exact fun t ts rest ht h => ⟨rest, .inr ⟨ts, ⟨t, rfl, is_eq_true.1 ht⟩, rest, h, rfl⟩, rfl⟩
  · exact fun ts rest h => ⟨rest, .inl h, rfl⟩

/-- Behind a separator that is taken a name can stand, and behind a name nothing has to. -/
theorem viable_namesAfter (separator : Symbol) (stop : Token → Bool) (e : Expected)
    (ts : List Located) :
    ViableAt (namesAfter separator stop e) (star (sequence [Phrase.symbol separator, Rule.name]))
      ts := by
  rcases begins_or_stops (is separator) ts with ⟨t, ts, rfl, ht⟩ | hs
  · have ht' := is_eq_true.1 ht
    rcases begins_or_stops (fun u => stop u || u.name?.isSome) ts with ⟨u, ts, rfl, hu⟩ | hs
    · cases hstop : stop u.token with
      | true => exact viableAt_of_ok (namesAfter_of_begins hstop)
      | false =>
        rw [hstop, Bool.false_or] at hu
        obtain ⟨n, hn⟩ := Option.isSome_iff_exists.1 hu
        intro err rest herr
        rw [namesAfter_of_name ht hstop hn] at herr
        rcases bind_eq_error.1 herr with h | ⟨_, _, _, h⟩
        · obtain ⟨taken, rfl, added, hadded⟩ := viable_namesAfter separator stop e ts h
          refine ⟨t :: u :: taken, rfl, added, fun more rest hm => ?_⟩
          refine .cons ?_ (hadded more rest hm)
          exact ⟨_, ⟨t, rfl, ht'⟩, _, ⟨u, rfl, exists_name?.1 ⟨n, hn⟩⟩, rfl⟩
        · contradiction
    · intro err rest herr
      cases (namesAfter_of_no_name ht hs).symm.trans herr
      exact ⟨[t], rfl, ((completes_name.seq completes_empty).cons ht').star⟩
  · exact viableAt_of_ok (namesAfter_of_stops hs)
termination_by ts.length

/-- A list of fields that stops short can be completed by a name and its parenthesis. -/
theorem viable_fieldList : Viable Grammar.fieldList (optional Rule.fieldList) := by
  have hinside : Viable (do
      let first ← Parser.name .fieldName
      let more ← namesAfter .comma (fun _ => false) .fieldName
      Parser.symbol .closeParen .closeFields
      return some (first :: more))
      (sequence [Rule.name, star (sequence [Phrase.symbol .comma, Rule.name]),
        Phrase.symbol .closeParen]) := by
    have hclose := (completes_symbol .closeParen).seq completes_empty
    refine (viable_name _).bind (free_token _) derives_name (completes_star.seq hclose) fun _ => ?_
    refine Viable.bind (viable_namesAfter _ _ _) (free_names _) derives_namesAfter hclose fun _ => ?_
    exact (viable_symbol _ _).bind (free_token _) derives_symbol completes_empty
      fun _ => viable_pure _
  refine Viable.acceptBoth_then hinside (viable_pure (a := empty) _) ?_ fun ts rest h => .inl h
  intro t u ts rest ht hu h
  exact .inr ⟨_, ⟨t, rfl, is_eq_true.1 ht⟩, _, ⟨u, rfl, is_eq_true.1 hu⟩, h⟩

/-- A path can be put anywhere, as the single name of a table. -/
theorem completes_path : Completes Rule.path [] :=
  completes_name.seq (completes_star.seq (completes_optional.seq completes_empty))

/-- A path that stops short can be completed, among its names or in its list of fields. -/
theorem viable_path : Viable Grammar.path Rule.path := by
  refine (viable_name _).bind (free_token _) derives_name
    (completes_star.seq (completes_optional.seq completes_empty)) fun _ => ?_
  refine Viable.bind (viable_namesAfter _ _ _) (free_names _) derives_namesAfter
    (completes_optional.seq completes_empty) fun _ => ?_
  exact viable_fieldList.bind free_fieldList.optional derives_fieldList completes_empty
    fun _ => viable_pure _

theorem isRelation_dash : IsRelation (.symbol .dash) := .inr (.inr (.inl rfl))

theorem viable_relation : Viable relation (token IsRelation) := viable_take isRelation_dash

/-! ## Settings -/

theorem isNumeral_zero : IsNumeral (.number "0") := ⟨"0", rfl⟩

/-- Where no word stands, one can be put; behind the first nothing has to. -/
theorem viable_wordsValue : Viable wordsValue (sequence [word, star word]) :=
  (viable_take (isWord_identifier "a")).bind (free_token _) (derives_take exists_word?)
    (completes_star.seq completes_empty) fun _ => (viable_takeAll _ _).map

/-- Where no text of a setting stands, a word can be put, or a number behind a dash. -/
theorem viable_settingText : Viable settingText literal := by
  intro ts
  rcases begins_or_stops (fun t => t.literal?.isSome) ts with ⟨t, after, rfl, ht⟩ | hs
  · obtain ⟨text, htext⟩ := Option.isSome_iff_exists.1 ht
    exact viableAt_of_ok (bind_of_ok (take?_of_some htext))
  · refine ViableAt.of_eq (q := do if ← accept (is .dash) then negative else wordsValue) ?_
      (bind_of_ok (take?_of_stops hs))
    have hnegative : Viable negative (token IsNumeral) := (viable_take isNumeral_zero).map
    refine Viable.accept_then hnegative viable_wordsValue ?_ ?_ ts
    · exact fun t ts rest ht h => ⟨_, .tail _ (.head _), _, ⟨t, rfl, is_eq_true.1 ht⟩, rest, h, rfl⟩
    · exact fun ts rest h => ⟨_, .tail _ (.tail _ (.head _)), h⟩

/-- The value of a setting that stops short can be completed, a reference by a path. -/
theorem viable_settingValue (key : String) : Viable (settingValue key) (value key) := by
  unfold settingValue value
  split
  · refine viable_relation.bind (free_token _) derives_relation
      (completes_path.seq completes_empty) fun _ => ?_
    exact viable_path.bind free_path derives_path completes_empty fun _ => viable_pure _
  · exact viable_settingText.map

/-- Behind the colon of a setting a value can be completed. -/
theorem viable_optionalValue (key : String) : Viable (optionalValue key)
    (optional (sequence [Phrase.symbol .colon, value key])) := by
  refine Viable.accept_then (viable_settingValue key).map (viable_pure (a := empty) _) ?_
    fun ts rest h => .inl h
  exact fun t ts rest ht h => .inr ⟨ts, ⟨t, rfl, is_eq_true.1 ht⟩, rest, h, rfl⟩

/-- Behind a setting the list can be closed. -/
theorem viable_settingEnd : Viable settingEnd (Phrase.symbol .closeBracket) := by
  intro ts
  cases hb : begins .closeBracket ts with
  | true => exact viableAt_of_ok (r := ((), ts)) (by rw [settingEnd, if_pos hb])
  | false =>
    rcases begins_or_stops (is .comma) ts with ⟨t, rest, rfl, ht⟩ | hs
    · refine viableAt_of_ok (r := ((), rest)) ?_
      rw [settingEnd, if_neg (by simp [hb])]
      exact symbol_eq_ok.2 ⟨t, rfl, is_eq_true.1 ht⟩
    · refine .of_error (e := .closeSettings) (completes_symbol _) ?_
      rw [settingEnd, if_neg (by simp [hb])]
      exact symbol_of_stops hs

/-- A setting can be put anywhere, as a key without a value. -/
theorem completes_setting : Completes Rule.setting [] := by
  refine ⟨[.identifier "a"], fun more rest hm => ?_⟩
  exact ⟨["a"], rest, List.cons_ne_nil _ _, ⟨more, rfl, hm⟩, .inl rfl⟩

/-- A setting is completed together with the bracket that closes the list. -/
theorem viable_setting :
    Viable Grammar.setting (sequence [Rule.setting, Phrase.symbol .closeBracket]) := by
  have hclose := (completes_symbol .closeBracket).seq completes_empty
  intro ts
  rcases begins_or_stops (fun t => t.word?.isSome) ts with ⟨t, after, rfl, ht⟩ | hs
  -- the key is all the words there are, so only what stands behind it can fail
  · obtain ⟨first, hfirst⟩ := Option.isSome_iff_exists.1 ht
    obtain ⟨more, _, mid, _, _, _, hmore⟩ := exists_takeAll Token.word? after
    have hkey : settingKey (t :: after) = .ok (Rule.key (first :: more), mid) := by
      rw [settingKey, bind_of_ok (take_of_some hfirst), bind_of_ok hmore]
      rfl
    obtain ⟨texts, hne, hwords, hkeq⟩ := derives_settingKey hkey
    obtain ⟨xs, hxs, hfree⟩ := free_wordsOf texts hwords
    have hvalue : Viable (do let value ← optionalValue (Rule.key texts); settingEnd
                             return (⟨Rule.key texts, value⟩ : Setting))
        (sequence [optional (sequence [Phrase.symbol .colon, value (Rule.key texts)]),
          Phrase.symbol .closeBracket]) := by
      refine (viable_optionalValue _).bind (free_optionalValue _) derives_optionalValue hclose
        fun _ => ?_
      exact viable_settingEnd.map.mono fun _ _ h => ⟨_, h, rfl⟩
    intro e rest herr
    rw [Grammar.setting, bind_of_ok hkey, hkeq] at herr
    obtain ⟨ys, rfl, hys⟩ := hvalue mid herr
    refine ⟨xs ++ ys, by rw [hxs, List.append_assoc], (hys.behind hfree).mono ?_⟩
    rintro _ _ ⟨mid₁, h₁, mid₂, h₂, h₃⟩
    exact ⟨mid₂, ⟨texts, mid₁, hne, h₁, h₂⟩, h₃⟩
  · refine .of_error (e := .settingName) (completes_setting.seq hclose) ?_
    exact bind_of_error (bind_of_error (take_of_stops hs))

/-- Settings in brackets, at least one of them. -/
def filledSettings : Phrase :=
  sequence [Phrase.symbol .openBracket, star (sequence [Rule.setting, Phrase.symbol .comma]),
    Rule.setting, Phrase.symbol .closeBracket]

/-- Settings with one at least are settings. -/
theorem settings_of_filled {ts rest : List Located} (h : filledSettings ts rest) :
    Rule.settings ts rest := by
  obtain ⟨_, h₁, _, h₂, _, h₃, h₄⟩ := h
  exact ⟨_, h₁, _, h₂, _, .inr h₃, h₄⟩

/-- Settings that stop short can be completed by a setting and the closing bracket. -/
theorem viable_settingsBody : Viable settingsBody
    (sequence [star (sequence [Rule.setting, Phrase.symbol .comma]), Rule.setting,
      Phrase.symbol .closeBracket]) := by
  refine viable_manyUntil (viable_setting.mono fun ts _ h => ⟨ts, .nil, h⟩)
    (free_setting.seq ((free_token _).seq free_empty)) fun ts x mid _ hmid h => ?_
  rcases derives_setting h with h | ⟨_, hclose⟩
  · exact h
  · rw [hmid] at hclose
    contradiction

/-- Where a list of settings stops short, it can be completed to one that is not empty. -/
theorem viable_settings : Viable Grammar.settings filledSettings :=
  Viable.accept_then viable_settingsBody (viable_pure (a := filledSettings) _)
    (fun t ts _ ht h => ⟨ts, ⟨t, rfl, is_eq_true.1 ht⟩, h⟩) fun _ _ h => h

/-- Settings that may be absent can be completed where they stop short. -/
theorem viable_optionalSettings : Viable Grammar.settings (optional Rule.settings) :=
  viable_settings.mono fun _ _ h => .inr (settings_of_filled h)

/-! ## Blocks -/

/-- Blocks that are open can be closed, whatever their number. -/
theorem completes_insides (n : Nat) : Completes (insides n) [] := by
  induction n with
  | zero => exact completes_empty
  | succ n ih =>
    have hinside : Completes inside [] := completes_empty.mono fun _ _ h => h ▸ .nil
    exact hinside.seq ((completes_symbol _).seq (ih.seq completes_empty))

/-- A block that is passed over fails at the end of the input only, and there it can be closed. -/
theorem viable_blockBody (depth : Nat) (ts : List Located) :
    ViableAt (blockBody depth) (insides (depth + 1)) ts := by
  induction ts generalizing depth with
  | nil => exact .of_error (completes_insides _) rfl
  | cons t ts ih =>
    by_cases ho : t.token = .symbol .openBrace
    · exact (ih _).cons (blockBody_of_open ho depth) fun _ _ => insides_of_open ho
    by_cases hc : t.token = .symbol .closeBrace
    · cases depth with
      | zero => exact viableAt_of_ok (blockBody_of_close hc)
      | succ depth =>
        exact (ih _).cons (blockBody_of_close_inner hc depth) fun _ _ => insides_of_close hc
    · exact (ih _).cons (blockBody_of_other ho hc depth) fun _ _ => insides_of_other ho hc

/-- The inside of one block, with the brace that closes it. -/
theorem viable_insideBlock :
    Viable (blockBody 0) (sequence [inside, Phrase.symbol .closeBrace]) := by
  intro ts
  refine (viable_blockBody 0 ts).mono ?_
  rintro _ _ ⟨_, h₁, _, h₂, _, rfl, rfl⟩
  exact ⟨_, h₁, _, h₂, rfl⟩

/-- Before the opening brace of a block any other token can stand, and settings can be completed. -/
theorem viable_blockHead : Viable blockHead (choice [Rule.settings,
    token fun t => t ≠ .symbol .openBrace ∧ t ≠ .symbol .openBracket]) := by
  have htoken : Viable (Parser.take (fun _ => some ()) .openBlock)
      (token fun t => t ≠ .symbol .openBrace ∧ t ≠ .symbol .openBracket) :=
    viable_take (t := .symbol .comma) (by decide)
  refine Viable.accept_then viable_settingsBody.map htoken ?_ fun _ _ h => ⟨_, .tail _ (.head _), h⟩
  exact fun t ts rest ht h => ⟨_, .head _, settings_of_filled ⟨ts, ⟨t, rfl, is_eq_true.1 ht⟩, h⟩⟩

theorem completes_inside : Completes (sequence [inside, Phrase.symbol .closeBrace]) [] :=
  (completes_empty.mono fun _ _ h => h ▸ .nil).seq ((completes_symbol _).seq completes_empty)

/-- A declaration that is passed over can be completed, in front of its block or inside it. -/
theorem viable_skipped : Viable Grammar.skipped Rule.skipped := by
  have hheads : Viable (manyUntil .openBrace blockHead advances_blockHead)
      (sequence [star (choice [Rule.settings,
        token fun t => t ≠ .symbol .openBrace ∧ t ≠ .symbol .openBracket]),
        Phrase.symbol .openBrace]) := by
    refine viable_manyUntil ?_ free_blockHead fun _ _ _ hs _ h => derives_blockHead hs h
    exact (viable_blockHead.mono fun _ _ => .single).followed
      ((completes_symbol _).seq completes_empty)
  have hskipped : Viable Grammar.skipped (seq (sequence [star (choice [Rule.settings,
      token fun t => t ≠ .symbol .openBrace ∧ t ≠ .symbol .openBracket]),
      Phrase.symbol .openBrace]) (sequence [inside, Phrase.symbol .closeBrace])) := by
    refine hheads.bind (free_blockHead.star.seq ((free_token _).seq free_empty)) ?_
      completes_inside fun _ => viable_insideBlock
    exact fun h => derives_manyUntil h fun _ _ _ hs h => derives_blockHead hs h
  -- the head's opening brace is the one that the rule has in front of its block
  refine hskipped.mono ?_
  rintro _ rest ⟨_, ⟨_, h₁, _, h₂, rfl⟩, h₃⟩
  exact ⟨_, h₁, rest, ⟨_, h₂, h₃⟩, rfl⟩

/-! ## Types -/

/-- Behind the point in a type's name another name can be put. -/
theorem viable_typeQualifier :
    Viable typeQualifier (optional (sequence [Phrase.symbol .dot, Rule.name])) :=
  Viable.accept_then (viable_name _).map (viable_pure (a := empty) _)
    (fun t ts rest ht h => .inr ⟨ts, ⟨t, rfl, is_eq_true.1 ht⟩, rest, h, rfl⟩) fun _ _ h => .inl h

/-- The arguments of a type can be closed wherever they stop short. -/
theorem viable_typeArguments : Viable typeArguments (optional (sequence
    [Phrase.symbol .openParen, star (token IsArgument), Phrase.symbol .closeParen])) := by
  have hclose := (completes_symbol .closeParen).seq completes_empty
  have hinside : Viable (do
      let args ← takeAll Argument.ofToken?
      Parser.symbol .closeParen .closeArguments
      return some (Argument.text args))
      (sequence [star (token IsArgument), Phrase.symbol .closeParen]) := by
    refine (viable_takeAll _ _).bind (free_token _).star (derives_takeAll exists_argument?) hclose
      fun _ => ?_
    exact (viable_symbol _ _).bind (free_token _) derives_symbol completes_empty
      fun _ => viable_pure _
  exact Viable.accept_then hinside (viable_pure (a := empty) _)
    (fun t ts rest ht h => .inr ⟨ts, ⟨t, rfl, is_eq_true.1 ht⟩, h⟩) fun _ _ h => .inl h

/-- Behind a type only an opening bracket can begin the brackets of an array. -/
theorem not_beginsArray_of_symbol {s : Symbol} {ts rest : List Located}
    (h : Phrase.symbol s ts rest) (hs : s ≠ .openBracket) : ¬ BeginsArray ts := by
  obtain ⟨t, rfl, ht⟩ := h
  rintro ⟨_, _, _, ⟨⟩, ho, _⟩
  exact hs (Token.symbol.inj (ht.symm.trans ho))

/-- A type without the brackets of an array can stand before the end of its table. -/
theorem completes_arraySuffix :
    Completes (sequence [arraySuffix, Phrase.symbol .closeBrace]) [] := by
  refine ((completes_symbol .closeBrace).seq completes_empty).mono ?_
  rintro ts _ ⟨rest, h, rfl⟩
  refine ⟨ts, ⟨_, .tail _ (.head _), ?_, rfl⟩, rest, h, rfl⟩
  exact not_beginsArray_of_symbol h (by decide)

/-- A type is completed together with the brace that closes the table. -/
theorem viable_typeExpression (first : String) : Viable (Grammar.typeExpression first)
    (sequence [optional (sequence [Phrase.symbol .dot, Rule.name]),
      optional (sequence [Phrase.symbol .openParen, star (token IsArgument),
        Phrase.symbol .closeParen]), arraySuffix, Phrase.symbol .closeBrace]) := by
  refine viable_typeQualifier.bind free_typeQualifier derives_typeQualifier
    (completes_optional.seq completes_arraySuffix) fun _ => ?_
  refine viable_typeArguments.bind free_typeArguments derives_typeArguments
    completes_arraySuffix fun _ => ?_
  intro ts
  obtain ⟨⟨b, mid⟩, h⟩ := exists_acceptBoth (is .openBracket) (is .closeBracket) ts
  exact viableAt_of_ok (bind_of_ok h)

/-- A type is completed together with the brace that closes the table, or is absent before it. -/
theorem viable_fieldType (line : Nat) : Viable (Grammar.fieldType (some line))
    (sequence [Rule.fieldType line, Phrase.symbol .closeBrace]) := by
  intro ts
  by_cases h : BeginsType line ts
  · obtain ⟨t, after, rfl, ⟨text, ht⟩ | ⟨text, ht⟩, hline⟩ := h
    · refine (viable_typeExpression text after).cons (fieldType_of_word ht hline after) ?_
      rintro ts _ ⟨_, h₁, _, h₂, mid, h₃, rest, h₄, rfl⟩
      have hword : IsWord t.token := ⟨text, ht⟩
      refine ⟨mid, ⟨_, .head _, ⟨t, ts, rfl, .inl hword, hline⟩, _, .tail _ (.head _), ?_⟩, rest,
        h₄, rfl⟩
      exact ⟨ts, ⟨t, rfl, hword⟩, _, h₁, _, h₂, mid, h₃, rfl⟩
    · exact viableAt_of_ok (fieldType_of_quoted ht hline after)
  · exact viableAt_of_ok (fieldType_of_not h)

/-! ## Tables -/

/-- Settings with one at least begin neither a type nor the brackets of an array, so putting them
behind a type changes nothing about it. -/
theorem not_begins_of_filled {ts rest : List Located} (h : filledSettings ts rest) :
    (∀ line, ¬ BeginsType line ts) ∧ ¬ BeginsArray ts := by
  obtain ⟨ts', ⟨t, rfl, ht⟩, mid, hstar, _, hlast, _⟩ := h
  refine ⟨fun line => not_beginsType_of_symbol ht, ?_⟩
  have hbegins : begins .closeBracket ts' = false := by
    cases hstar with
    | nil => exact begins_of_setting hlast
    | cons h _ => exact begins_of_setting h.choose_spec.1
  rintro ⟨_, u, _, ⟨⟩, _, hu⟩
  rw [begins, is_eq_true.2 hu] at hbegins
  contradiction

/-- What follows the name of a field is completed together with the brace that closes the table. -/
theorem viable_typeAndSettings (line : Nat) (g : Document.FieldType → List Setting → α) :
    Viable (do
        let type ← Grammar.fieldType (some line)
        let settings ← Grammar.settings
        return g type settings)
      (sequence [Rule.fieldType line, optional Rule.settings, Phrase.symbol .closeBrace]) := by
  intro ts e rest herr
  -- either the type stops short, or its settings do and are completed to one at least
  rcases bind_eq_error.1 herr with hfail | ⟨type, mid, hok, hfail⟩
  · obtain ⟨taken, rfl, ha⟩ := viable_fieldType line ts hfail
    refine ⟨taken, rfl, ha.mono ?_⟩
    rintro _ _ ⟨mid, h₁, h₂⟩
    exact ⟨mid, h₁, mid, .inl rfl, h₂⟩
  · obtain ⟨xs, rfl, hxs⟩ := exists_fieldType_append (derives_fieldType hok)
    obtain ⟨ys, rfl, hys⟩ := (viable_settings.followed
      ((completes_symbol .closeBrace).seq completes_empty)).map mid hfail
    obtain ⟨added, hadded⟩ := hys
    refine ⟨xs ++ ys, by simp, added, fun more rest hm => ?_⟩
    obtain ⟨mid', hfilled, hclose⟩ := hadded more rest hm
    obtain ⟨htype, harray⟩ := not_begins_of_filled hfilled
    rw [List.append_assoc, List.append_assoc, ← List.append_assoc ys]
    refine ⟨_, hxs _ (fun h => absurd h (htype line)) fun h => absurd h harray, mid', ?_, hclose⟩
    exact .inr (settings_of_filled hfilled)

/-- Before the brace that closes a table no special item begins. -/
theorem fresh_of_close {ts rest : List Located} (h : Phrase.symbol .closeBrace ts rest) :
    Fresh ts := by
  obtain ⟨t, rfl, ht⟩ := h
  exact fresh_cons.2 (.inr ht)

/-- A name and the closing brace complete a table. -/
theorem completes_field : Completes (sequence [Rule.field, Phrase.symbol .closeBrace]) [] := by
  refine (completes_name.seq ((completes_symbol .closeBrace).seq completes_empty)).mono ?_
  rintro _ _ ⟨_, ⟨t, rfl, ht⟩, rest, h, rfl⟩
  refine ⟨_, ⟨t, _, rfl, ht, _, ⟨_, .tail _ (.head _), ?_, rfl⟩, _, .inl rfl, rfl⟩, rest, h, rfl⟩
  obtain ⟨u, rfl, hu⟩ := h
  exact not_beginsType_of_symbol hu

/-- A field is completed together with the brace that closes the table. -/
theorem viable_field (schemaName : Option String) (tableName : String) :
    Viable (Grammar.field schemaName tableName)
      (sequence [Rule.field, Phrase.symbol .closeBrace]) := by
  intro ts
  rcases begins_or_stops (fun t => t.name?.isSome) ts with ⟨t, after, rfl, ht⟩ | hs
  · obtain ⟨n, hn⟩ := Option.isSome_iff_exists.1 ht
    refine (viable_typeAndSettings t.position.line _ after).cons
      (bind_of_ok (p := Parser.name .fieldName) (name_of_some hn)) ?_
    rintro ts _ ⟨_, h₁, mid, h₂, rest, h₃, rfl⟩
    exact ⟨mid, ⟨t, ts, rfl, exists_name?.1 ⟨n, hn⟩, _, h₁, mid, h₂, rfl⟩, rest, h₃, rfl⟩
  · refine .of_error (e := .fieldName) completes_field ?_
    exact bind_of_error (p := Parser.name .fieldName) (take_of_stops hs)

theorem viable_noteText : Viable noteText Rule.text := viable_take (.inl ⟨"", rfl⟩)

/-- An item is completed together with the brace that closes the table. -/
theorem viable_tableItem (schemaName : Option String) (tableName : String) :
    Viable (tableItem schemaName tableName)
      (sequence [Rule.item, Phrase.symbol .closeBrace]) := by
  have hclose := (completes_symbol .closeBrace).seq completes_empty
  have hcolon : Viable (do let text ← noteText; return TableItem.note text)
      (sequence [Rule.text, Phrase.symbol .closeBrace]) := (viable_noteText.followed hclose).map
  have hbrace : Viable (do
      let text ← noteText
      Parser.symbol .closeBrace .closeNote
      return TableItem.note text)
      (sequence [Rule.text, Phrase.symbol .closeBrace, Phrase.symbol .closeBrace]) := by
    refine viable_noteText.bind (free_token _) derives_noteText
      ((completes_symbol _).seq hclose) fun _ => ?_
    exact ((viable_symbol _ _).followed hclose).map
  have hindexes : Viable (do blockBody 0; return TableItem.indexes)
      (seq (sequence [inside, Phrase.symbol .closeBrace]) (sequence [Phrase.symbol .closeBrace])) :=
    (viable_insideBlock.followed hclose).map
  have hfield := (viable_field schemaName tableName).map (g := fun r =>
    TableItem.field r.1 r.2)
  -- in the order in which the parser looks: a note behind a colon, a note in braces, indexes, a
  -- field
  refine Viable.acceptBoth_then hcolon (Viable.acceptBoth_then hbrace
    (Viable.acceptBoth_then hindexes hfield ?_ ?_) ?_ fun _ _ h => h) ?_ fun _ _ h => h
  · rintro t u _ _ ht hu ⟨_, ⟨mid, h₁, _, h₂, rfl⟩, rest, h₃, rfl⟩
    exact ⟨_, ⟨_, .tail _ (.tail _ (.head _)), _, ⟨t, rfl, ht⟩, _,
      ⟨_, ⟨u, rfl, is_eq_true.1 hu⟩, mid, h₁, _, h₂, rfl⟩, rfl⟩, rest, h₃, rfl⟩
  · rintro ts _ ⟨mid, h₁, rest, h₂, rfl⟩
    refine ⟨mid, ⟨_, .tail _ (.tail _ (.tail _ (.head _))), ?_, h₁⟩, rest, h₂, rfl⟩
    exact not_beginsSpecial_of_field h₁ (fresh_of_close h₂)
  · rintro t u _ _ ht hu ⟨_, h₁, _, h₂, rest, h₃, rfl⟩
    exact ⟨_, ⟨_, .tail _ (.head _), _, ⟨t, rfl, ht⟩, _, ⟨u, rfl, is_eq_true.1 hu⟩, _, h₁, _, h₂,
      rfl⟩, rest, h₃, rfl⟩
  · rintro t u _ _ ht hu ⟨_, h₁, rest, h₂, rfl⟩
    exact ⟨_, ⟨_, .head _, _, ⟨t, rfl, ht⟩, _, ⟨u, rfl, is_eq_true.1 hu⟩, _, h₁, rfl⟩, rest, h₂,
      rfl⟩

/-- A table's body can be closed at once. -/
theorem completes_items : Completes (sequence [star Rule.item, Phrase.symbol .closeBrace]) [] :=
  completes_star.seq ((completes_symbol _).seq completes_empty)

/-- One more item and the closing brace complete a table. -/
theorem completes_item : Completes (sequence [Rule.item, Phrase.symbol .closeBrace]) [] := by
  refine completes_field.mono ?_
  rintro ts _ ⟨mid, h₁, rest, h₂, rfl⟩
  refine ⟨mid, ⟨_, .tail _ (.tail _ (.tail _ (.head _))), ?_, h₁⟩, rest, h₂, rfl⟩
  exact not_beginsSpecial_of_field h₁ (fresh_of_close h₂)

/-- The items are completed by the closing brace, or by the rest of an item that has begun: either
can take the place of what followed the item before. -/
theorem viable_tableBody (schemaName : Option String) (tableName : String) :
    Viable (tableBody schemaName tableName)
      (sequence [star Rule.item, Phrase.symbol .closeBrace]) := by
  suffices h : ∀ ts, ViableAt (repeatUntil (begins .closeBrace)
      ((tableItem schemaName tableName).beforeEnd .closeTable) ((advances_tableItem _ _).beforeEnd _))
      (ahead (Replaces ts) (seq (star Rule.item) (sequence [Phrase.symbol .closeBrace]))) ts from
    fun ts => viableAt_manyUntil ((h ts).mono fun _ _ h => h.2)
  refine viable_repeatUntil_of ?_ ?_
  · intro ts _ e rest herr
    obtain ⟨taken, rfl, ha⟩ :=
      (viable_tableItem schemaName tableName).beforeEnd completes_item .closeTable ts herr
    -- with no token of an item taken, the brace alone closes the table
    cases taken with
    | nil =>
      refine ⟨[], rfl, ((completes_symbol .closeBrace).seq completes_empty).mono ?_⟩
      rintro _ _ ⟨_, ⟨t, rfl, ht⟩, rfl⟩
      exact ⟨replaces_of_close ht, _, .nil, _, ⟨t, rfl, ht⟩, rfl⟩
    | cons t taken =>
      obtain ⟨added, hadded⟩ := ha
      refine ⟨t :: taken, rfl, added, fun more rest' hm => ?_⟩
      obtain ⟨mid, h₁, h₂⟩ := hadded more rest' hm
      obtain ⟨_, _, ⟨⟩, ht⟩ := exists_name_of_item h₁
      exact ⟨replaces_of_name ht, mid, .single h₁, h₂⟩
  · intro ts x mid _ _ hok
    obtain ⟨t, taken, rfl, ht, htaken⟩ :=
      exists_item_append (derives_beforeEnd hok derives_tableItem)
    exact ⟨t :: taken, rfl, fun rest hr => ⟨replaces_of_name ht, htaken rest hr⟩⟩

/-- A keyword is told by its own spelling. -/
theorem isKeyword_spelling (k : Keyword) : (Token.identifier k.spelling).isKeyword k = true := by
  cases k <;> decide

/-- A keyword can be put anywhere. -/
theorem completes_keyword (k : Keyword) : Completes (keyword k) [] :=
  completes_token (isKeyword_spelling k)

/-- Behind `as` a name can be put. -/
theorem viable_tableAlias :
    Viable tableAlias (optional (sequence [keyword .as, Rule.name])) :=
  Viable.accept_then (viable_name _).map (viable_pure (a := empty) _)
    (fun t ts rest ht h => .inr ⟨ts, ⟨t, rfl, ht⟩, rest, h, rfl⟩) fun _ _ h => .inl h

/-- A table that stops short can be completed, at each of its parts. -/
theorem viable_table : Viable Grammar.table Rule.table := by
  have hbody := (completes_symbol .openBrace).seq completes_items
  refine (viable_qualifiedName _).bind free_qualified derives_qualifiedName
    (completes_optional.seq (completes_optional.seq hbody)) fun ⟨_, _⟩ => ?_
  refine viable_tableAlias.bind ((free_token _).seq ((free_token _).seq free_empty)).optional
    derives_tableAlias (completes_optional.seq hbody) fun _ => ?_
  refine viable_optionalSettings.bind free_settings.optional derives_settings hbody fun _ => ?_
  refine (viable_symbol _ _).bind (free_token _) derives_symbol completes_items fun _ => ?_
  exact (viable_tableBody _ _).map

/-! ## References and enumerations -/

/-- A reference can be put anywhere, as two names with a dash between them. -/
theorem completes_reference : Completes Rule.reference [] :=
  completes_path.seq ((completes_token isRelation_dash).seq (completes_path.seq
    (completes_optional.seq completes_empty)))

/-- A reference that stops short can be completed, at each of its parts. -/
theorem viable_reference (n : Option String) : Viable (Grammar.reference n) Rule.reference := by
  have hend : Completes (sequence [optional Rule.settings]) [] :=
    completes_optional.seq completes_empty
  refine viable_path.bind free_path derives_path
    ((completes_token isRelation_dash).seq (completes_path.seq hend)) fun _ => ?_
  refine viable_relation.bind (free_token _) derives_relation (completes_path.seq hend)
    fun _ => ?_
  refine viable_path.bind free_path derives_path hend fun _ => ?_
  exact viable_optionalSettings.bind free_settings.optional derives_settings completes_empty
    fun _ => viable_pure _

/-- References that stop short can be completed, on their line or between their braces. -/
theorem viable_references : Viable Grammar.references Rule.references := by
  have hclose := (completes_symbol .closeBrace).seq completes_empty
  have hmany (n : Option String) : Viable (do
      Parser.symbol .openBrace .referenceBody
      manyUntil .closeBrace ((Grammar.reference n).beforeEnd .closeReferences)
        ((advances_reference n).beforeEnd _))
      (sequence [Phrase.symbol .openBrace, star Rule.reference, Phrase.symbol .closeBrace]) := by
    refine (viable_symbol _ _).bind (free_token _) derives_symbol (completes_star.seq hclose)
      fun _ => ?_
    refine viable_manyUntil ?_ free_reference fun _ _ _ _ _ h => derives_beforeEnd h derives_reference
    exact (((viable_reference n).beforeEnd completes_reference _).mono
      fun _ _ => .single).followed hclose
  have hline : Completes (sequence [Phrase.symbol .colon, Rule.reference]) [] :=
    (completes_symbol _).seq (completes_reference.seq completes_empty)
  intro ts
  -- ?_) => the name in front may be absent, so the parser cannot fail there
  refine ViableAt.bind (fun e rest herr => ?_)
    (fun n mid h => free_token _ |>.optional (derives_take?_name h))
    ((hline.choice (by simp)).seq completes_empty) fun n mid _ => ?_
  · obtain ⟨r, hr⟩ := exists_take? Token.name? ts
    rw [hr] at herr
    contradiction
  · refine Viable.accept_then (viable_reference n).map (hmany n) ?_ ?_ mid
    · exact fun t ts rest ht h => ⟨rest, ⟨_, .head _, ts, ⟨t, rfl, is_eq_true.1 ht⟩, rest, h, rfl⟩,
        rfl⟩
    · exact fun ts rest h => ⟨rest, ⟨_, .tail _ (.head _), h⟩, rfl⟩

/-- A value of an enumeration that stops short can be completed. -/
theorem viable_enumValue : Viable enumValue (sequence [Rule.name, optional Rule.settings]) := by
  refine (viable_name _).bind (free_token _) derives_name
    (completes_optional.seq completes_empty) fun _ => ?_
  exact viable_optionalSettings.bind free_settings.optional derives_settings completes_empty
    fun _ => viable_pure _

/-- An enumeration that stops short can be completed, at each of its parts. -/
theorem viable_enumeration : Viable Grammar.enumeration Rule.enumeration := by
  have hclose := (completes_symbol .closeBrace).seq completes_empty
  refine (viable_qualifiedName _).bind free_qualified derives_qualifiedName
    ((completes_symbol _).seq (completes_star.seq hclose)) fun ⟨_, _⟩ => ?_
  refine (viable_symbol _ _).bind (free_token _) derives_symbol (completes_star.seq hclose)
    fun _ => ?_
  refine (viable_manyUntil ?_ free_enumValue fun _ _ _ _ _ h => derives_enumValue h).map
  exact (viable_enumValue.mono fun _ _ => .single).followed hclose

/-! ## Documents -/

/-- A declaration can be put anywhere, as an empty enumeration. -/
theorem completes_declaration : Completes Rule.declaration [] := by
  have henumeration : Completes Rule.enumeration [] :=
    (completes_name.seq (completes_optional.seq completes_empty)).seq ((completes_symbol _).seq
      (completes_star.seq ((completes_symbol _).seq completes_empty)))
  have h : Completes (sequence [keyword .enum, Rule.enumeration]) [] :=
    (completes_keyword _).seq (henumeration.seq completes_empty)
  exact h.choice (by simp)

/-- A declaration that stops short can be completed, whatever it declares. -/
theorem viable_declaration : Viable Grammar.declaration Rule.declaration := by
  refine Viable.accept_then viable_table (Viable.accept_then viable_references.map
    (Viable.accept_then viable_enumeration.map (Viable.accept_then viable_skipped.map
      (viable_fail completes_declaration) ?_ fun _ _ h => h) ?_ fun _ _ h => h) ?_
      fun _ _ h => h) ?_ fun _ _ h => h
  · exact fun t ts rest ht h => ⟨_, .tail _ (.tail _ (.tail _ (.head _))), ts,
      derives_skippedKeyword ht, rest, h, rfl⟩
  · exact fun t ts rest ht h => ⟨_, .tail _ (.tail _ (.head _)), ts, ⟨t, rfl, ht⟩, rest, h, rfl⟩
  · exact fun t ts rest ht h => ⟨_, .tail _ (.head _), ts, ⟨t, rfl, ht⟩, rest, h, rfl⟩
  · exact fun t ts rest ht h => ⟨_, .head _, ts, ⟨t, rfl, ht⟩, rest, h, rfl⟩

/-- Where a document fails, it can still become one. -/
theorem viable_declarations : Viable declarations Rule.document := by
  have h : Viable (repeatUntil List.isEmpty Grammar.declaration advances_declaration)
      (seq (star Rule.declaration) empty) :=
    viable_repeatUntil ((viable_declaration.mono fun _ _ => .single).followed completes_empty)
      free_declaration fun _ _ _ _ _ h => derives_declaration h
  refine h.map.mono ?_
  rintro ts _ ⟨rest, h, rfl⟩
  exact h

end SchemaDiagram.Grammar
