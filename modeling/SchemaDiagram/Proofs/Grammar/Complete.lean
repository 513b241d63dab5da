import SchemaDiagram.Document.Source
import SchemaDiagram.Proofs.Grammar.Sound
import SchemaDiagram.Proofs.Parser.Takes

/-!
# SchemaDiagram.Proofs.Grammar.Complete

Whatever the grammar derives, the parsers take.  There is one lemma `takes_p` for each parser `p`: on
a phrase of the rule of the same name, `p` succeeds and leaves what follows the phrase.

A parser takes as much as it can, so a phrase with an optional part at its end is taken as it is
derived only in front of tokens that do not begin such a part.  Two conditions on what follows are
enough: `Stops (is s)` for a symbol `s` behind a path or a setting, and `Fresh` behind the parts of
a body.
-/

namespace SchemaDiagram.Grammar

open SchemaDiagram.Parser Phrase Rule

/-! ## Kinds of token -/

/-- A name is no symbol. -/
theorem is_of_isName {s : Symbol} {t : Token} (h : IsName t) : is s t = false := by
  rcases h with ⟨_, rfl⟩ | ⟨_, rfl⟩ <;> rfl

/-- A keyword is a word. -/
theorem isWord_of_isKeyword {k : Keyword} {t : Token} (h : t.isKeyword k = true) : IsWord t := by
  cases t <;> simp_all [Token.isKeyword, IsWord]

theorem isName_of_isKeyword {k : Keyword} {t : Token} (h : t.isKeyword k = true) : IsName t :=
  .inl (isWord_of_isKeyword h)

/-- No two keywords are spelled alike. -/
theorem spelling_injective {j k : Keyword} (h : j.spelling = k.spelling) : j = k := by
  cases j <;> cases k <;> first | rfl | exact absurd h (by decide)

/-- A word is one keyword at most. -/
theorem isKeyword_of_ne {j k : Keyword} {t : Token} (h : t.isKeyword j = true) (hne : j ≠ k) :
    t.isKeyword k = false := by
  cases t with
  | identifier text =>
    simp only [Token.isKeyword, decide_eq_true_eq] at h
    simp only [Token.isKeyword, h, decide_eq_false_iff_not, String.toList_inj]
    exact fun he => hne (spelling_injective he)
  | _ => rfl

/-- A symbol stops every parser that does not go on with it. -/
theorem stops_of_symbol {s : Symbol} {ts rest : List Located} (h : Phrase.symbol s ts rest)
    {test : Token → Bool} (hs : test (.symbol s) = false) : Stops test ts := by
  obtain ⟨t, rfl, ht⟩ := h
  rw [stops_cons, ht, hs]

/-- What can follow a part of a body or a declaration: a name, a closing brace or the end. -/
def Fresh (ts : List Located) : Prop :=
  ∀ t ∈ ts.head?, IsName t.token ∨ t.token = .symbol .closeBrace

/-- Before the end of the input, `Fresh` is about the next token alone. -/
theorem fresh_cons {t : Located} {ts : List Located} :
    Fresh (t :: ts) ↔ IsName t.token ∨ t.token = .symbol .closeBrace := by
  simp [Fresh]

/-- Of all symbols only the closing brace can follow a part of a body. -/
theorem Fresh.stops {ts : List Located} (h : Fresh ts) {s : Symbol} (hs : s ≠ .closeBrace) :
    Stops (is s) ts := by
  cases ts with
  | nil => exact stops_nil _
  | cons t ts =>
    rw [stops_cons]
    rcases fresh_cons.1 h with ht | ht
    · exact is_of_isName ht
    · exact is_eq_false.2 (by rw [ht]; exact fun he => hs (Token.symbol.inj he).symm)

/-! ## Names and paths -/

/-- A name is taken whatever follows it. -/
theorem takes_name {e : Expected} {ts rest : List Located} (h : Rule.name ts rest) :
    Takes (Parser.name e) ts rest :=
  takes_take exists_name? h

/-- Names behind separators are taken up to a token that is no separator, or to a separator with a
stop behind it. -/
theorem takes_namesAfter {separator : Symbol} {stop : Token → Bool} {e : Expected}
    (hstop : ∀ t, IsName t → stop t = false) {ts rest : List Located}
    (h : star (sequence [Phrase.symbol separator, Rule.name]) ts rest)
    (hrest : Stops (is separator) rest ∨ BeginsBoth (is separator) stop rest) :
    Takes (namesAfter separator stop e) ts rest := by
  induction h with
  | nil =>
    rcases hrest with hs | ⟨t, u, after, rfl, _, hu⟩
    · exact ⟨[], namesAfter_of_stops hs⟩
    · exact ⟨[], namesAfter_of_begins hu⟩
  | cons h _ ih =>
    obtain ⟨_, ⟨t, rfl, ht⟩, _, ⟨u, rfl, hu⟩, rfl⟩ := h
    obtain ⟨n, hn⟩ := exists_name?.2 hu
    unfold Takes
    rw [namesAfter_of_name (is_eq_true.2 ht) (hstop _ hu) hn]
    exact (ih hrest).bind fun _ => takes_pure _ _

/-- A table's name is taken up to a token other than a point, which would go on with it. -/
theorem takes_qualifiedName {e : Expected} {ts rest : List Located} (h : qualified ts rest)
    (hs : Stops (is .dot) rest) : Takes (qualifiedName e) ts rest := by
  obtain ⟨mid, h₁, _, h₂, rfl⟩ := h
  refine (takes_name h₁).bind fun _ => ?_
  rcases h₂ with rfl | ⟨_, ⟨t, rfl, ht⟩, _, h₂, rfl⟩
  · exact takes_accept_else hs (takes_pure _ _)
  · exact takes_accept_then (is_eq_true.2 ht) ((takes_name h₂).bind fun _ => takes_pure _ _)

/-- Fields in parentheses behind a point are taken, and none where no point stands. -/
theorem takes_fieldList {ts rest : List Located} (h : optional Rule.fieldList ts rest)
    (hs : Stops (is .dot) rest) : Takes Grammar.fieldList ts rest := by
  rcases h with rfl | ⟨_, ⟨t, rfl, ht⟩, _, ⟨u, rfl, hu⟩, _, h₁, _, h₂, _, h₃, rfl⟩
  · exact takes_acceptBoth_else (not_beginsBoth_of_stops hs) (takes_pure _ _)
  · have hcomma := stops_of_symbol h₃ (rfl : is .comma _ = false)
    refine takes_acceptBoth_then (is_eq_true.2 ht) (is_eq_true.2 hu) ?_
    refine (takes_name h₁).bind fun _ => ?_
    refine (takes_namesAfter (fun _ _ => rfl) h₂ (.inl hcomma)).bind fun _ => ?_
    exact (takes_symbol h₃).bind fun _ => takes_pure _ _

/-- A path is taken up to a token other than a point. -/
theorem takes_path {ts rest : List Located} (h : Rule.path ts rest) (hs : Stops (is .dot) rest) :
    Takes Grammar.path ts rest := by
  obtain ⟨mid₁, h₁, mid₂, h₂, _, h₃, rfl⟩ := h
  refine (takes_name h₁).bind fun _ => ?_
  refine (takes_namesAfter (fun _ => is_of_isName) h₂ ?_).bind fun _ =>
    (takes_fieldList h₃ hs).bind fun _ => takes_pure _ _
  rcases h₃ with rfl | ⟨_, ⟨t, rfl, ht⟩, _, ⟨u, rfl, hu⟩, _⟩
  · exact .inl hs
  · exact .inr ⟨t, u, _, rfl, is_eq_true.2 ht, is_eq_true.2 hu⟩

/-- The sign of a relation is taken whatever follows it. -/
theorem takes_relation {ts rest : List Located} (h : token IsRelation ts rest) :
    Takes relation ts rest :=
  takes_take exists_relation? h

/-! ## Settings -/

/-- What can follow a setting. -/
def EndsSetting (ts : List Located) : Prop :=
  ∃ t rest, ts = t :: rest ∧ (t.token = .symbol .comma ∨ t.token = .symbol .closeBracket)

/-- What can follow a setting stops every parser that goes on with neither comma nor bracket. -/
theorem EndsSetting.stops {ts : List Located} (h : EndsSetting ts) {test : Token → Bool}
    (hcomma : test (.symbol .comma) = false) (hclose : test (.symbol .closeBracket) = false) :
    Stops test ts := by
  obtain ⟨t, rest, rfl, ht | ht⟩ := h
  · rw [stops_cons, ht, hcomma]
  · rw [stops_cons, ht, hclose]

/-- Words are taken up to the comma or the bracket behind the setting. -/
theorem takes_wordsValue {ts rest : List Located} (h : sequence [word, star word] ts rest)
    (hend : EndsSetting rest) : Takes wordsValue ts rest := by
  obtain ⟨_, h₁, _, h₂, rfl⟩ := h
  exact (takes_take exists_word? h₁).bind fun _ =>
    (takes_takeAll exists_word? h₂ (hend.stops rfl rfl)).bind fun _ => takes_pure _ _

/-- The text of a setting is taken up to the comma or the bracket behind the setting. -/
theorem takes_settingText {ts rest : List Located} (h : literal ts rest) (hend : EndsSetting rest) :
    Takes settingText ts rest := by
  rcases choice_three.1 h with h | h | h
  · obtain ⟨t, rfl, ht⟩ := h
    obtain ⟨text, htext⟩ := exists_literal?.2 ht
    refine ⟨text, ?_⟩
    rw [settingText, bind_of_ok (take?_of_some htext)]
    rfl
  -- a number behind a dash: the dash is no literal, so the parser looks for it
  · obtain ⟨_, ⟨t, rfl, ht⟩, _, h₁, rfl⟩ := h
    unfold Takes
    rw [settingText, bind_of_ok (take?_of_stops (by simp [ht, Token.literal?]))]
    exact takes_accept_then (is_eq_true.2 ht)
      ((takes_take exists_number? h₁).bind fun _ => takes_pure _ _)
  -- words: the first is neither a literal nor a dash
  · have hw := h
    obtain ⟨_, ⟨t, rfl, text, ht⟩, _⟩ := h
    unfold Takes
    rw [settingText, bind_of_ok (take?_of_stops (by simp [ht, Token.literal?]))]
    exact takes_accept_else (by rw [stops_cons, ht]; rfl) (takes_wordsValue hw hend)

/-- The value of a setting is taken, whether it is a reference or a text. -/
theorem takes_settingValue {key : String} {ts rest : List Located} (h : value key ts rest)
    (hend : EndsSetting rest) : Takes (settingValue key) ts rest := by
  unfold value at h
  unfold settingValue
  split at h
  · rename_i hkey
    obtain ⟨_, h₁, _, h₂, rfl⟩ := h
    rw [if_pos hkey]
    exact (takes_relation h₁).bind fun _ =>
      (takes_path h₂ (hend.stops rfl rfl)).bind fun _ => takes_pure _ _
  · rename_i hkey
    rw [if_neg hkey]
    exact (takes_settingText h hend).bind fun _ => takes_pure _ _

/-- A setting is taken with a value behind its colon, and without a colon it has none. -/
theorem takes_optionalValue {key : String} {ts rest : List Located}
    (h : optional (sequence [Phrase.symbol .colon, value key]) ts rest) (hend : EndsSetting rest) :
    Takes (optionalValue key) ts rest := by
  rcases h with rfl | ⟨_, ⟨t, rfl, ht⟩, _, h, rfl⟩
  · exact takes_accept_else (hend.stops rfl rfl) (takes_pure _ _)
  · exact takes_accept_then (is_eq_true.2 ht)
      ((takes_settingValue h hend).bind fun _ => takes_pure _ _)

/-- Words in front of another token are taken as the key they make up. -/
theorem settingKey_of_words {texts : List String} (hne : texts ≠ []) {ts rest : List Located}
    (h : words texts ts rest) (hs : Stops (fun t => t.word?.isSome) rest) :
    settingKey ts = .ok (Rule.key texts, rest) := by
  obtain ⟨taken, rfl, hmap⟩ := h
  cases texts with
  | nil => exact absurd rfl hne
  | cons first more =>
    cases taken with
    | nil => simp at hmap
    | cons t taken =>
      obtain ⟨ht, hmore⟩ := List.cons.inj hmap
      have hall := takeAll_append (map_word?_eq.2 hmore) hs
      rw [List.cons_append, settingKey, bind_of_ok (take_of_some (word?_eq_some.2 ht)),
        bind_of_ok hall]
      rfl

/-- A comma behind a setting belongs to it. -/
theorem takes_settingEnd_of_comma {ts rest : List Located} (h : Phrase.symbol .comma ts rest) :
    Takes settingEnd ts rest := by
  unfold Takes settingEnd
  rw [if_neg]
  · exact takes_symbol h
  · rw [Bool.not_eq_true, begins_eq_false]
    exact stops_of_symbol h rfl

/-- A closing bracket behind a setting is left for the list. -/
theorem takes_settingEnd_of_close {ts : List Located} (h : begins .closeBracket ts = true) :
    Takes settingEnd ts ts := by
  refine ⟨(), ?_⟩
  rw [settingEnd, if_pos h]

/-- A setting is taken up to the comma or the bracket behind it. -/
theorem takes_setting {ts mid rest : List Located} (h : Rule.setting ts mid)
    (hends : EndsSetting mid) (hend : Takes settingEnd mid rest) :
    Takes Grammar.setting ts rest := by
  obtain ⟨texts, mid', hne, hwords, hvalue⟩ := h
  have hs : Stops (fun t => t.word?.isSome) mid' := by
    rcases hvalue with rfl | ⟨_, hcolon, _⟩
    · exact hends.stops rfl rfl
    · exact stops_of_symbol hcolon rfl
  refine takes_bind_of_ok (settingKey_of_words hne hwords hs) ?_
  exact (takes_optionalValue hvalue hends).bind fun _ => hend.bind fun _ => takes_pure _ _

/-- A setting does not begin with the bracket that closes the list. -/
theorem begins_of_setting {ts rest : List Located} (h : Rule.setting ts rest) :
    begins .closeBracket ts = false := by
  obtain ⟨texts, mid, hne, ⟨taken, rfl, hmap⟩, _⟩ := h
  cases texts with
  | nil => exact absurd rfl hne
  | cons first more =>
    cases taken with
    | nil => simp at hmap
    | cons t taken =>
      obtain ⟨ht, _⟩ := List.cons.inj hmap
      rw [List.cons_append, begins_eq_false, stops_cons]
      exact congrArg (is .closeBracket) ht

/-- The phrase of a symbol begins with it. -/
theorem begins_of_symbol {s : Symbol} {ts rest : List Located} (h : Phrase.symbol s ts rest) :
    begins s ts = true :=
  begins_eq_true.2 ⟨_, rest, h.choose_spec⟩

/-- The setting that may stand before the closing bracket. -/
theorem takes_lastSetting {ts mid rest : List Located} (h : optional Rule.setting ts mid)
    (hclose : Phrase.symbol .closeBracket mid rest) :
    Takes (repeatUntil (begins .closeBracket) Grammar.setting advances_setting) ts mid := by
  have hbegins := begins_of_symbol hclose
  rcases h with rfl | h
  · exact takes_repeatUntil_of_stop hbegins
  · obtain ⟨t, rfl, ht⟩ := hclose
    refine Takes.repeat (begins_of_setting h) ?_ (takes_repeatUntil_of_stop hbegins)
    exact takes_setting h ⟨t, rest, rfl, .inr ht⟩ (takes_settingEnd_of_close hbegins)

/-- Settings are taken up to the closing bracket, with or without a comma behind the last. -/
theorem takes_settingsBody {ts rest : List Located}
    (h : sequence [star (sequence [Rule.setting, Phrase.symbol .comma]), optional Rule.setting,
      Phrase.symbol .closeBracket] ts rest) : Takes settingsBody ts rest := by
  obtain ⟨_, hstar, _, hlast, _, hclose, rfl⟩ := h
  refine Takes.manyUntil ?_ hclose
  induction hstar with
  | nil => exact takes_lastSetting hlast hclose
  | cons h _ ih =>
    obtain ⟨_, hs, _, hcomma, rfl⟩ := h
    have hend := takes_settingEnd_of_comma hcomma
    obtain ⟨t, rfl, ht⟩ := hcomma
    exact Takes.repeat (begins_of_setting hs) (takes_setting hs ⟨t, _, rfl, .inl ht⟩ hend)
      (ih hlast)

/-- Settings are taken if there are any, in front of tokens that are none. -/
theorem takes_settings {ts rest : List Located} (h : optional Rule.settings ts rest)
    (hs : Stops (is .openBracket) rest) : Takes Grammar.settings ts rest := by
  rcases h with rfl | ⟨_, ⟨t, rfl, ht⟩, h⟩
  · exact takes_accept_else hs (takes_pure _ _)
  · exact takes_accept_then (is_eq_true.2 ht) (takes_settingsBody h)

/-! ## Blocks -/

/-- What is inside a block leaves the number of open blocks as it is. -/
theorem blockBody_of_inside {ts rest : List Located} (h : inside ts rest) (depth : Nat) :
    blockBody depth ts = blockBody depth rest := by
  induction h generalizing depth with
  | nil => rfl
  | other ho hc _ ih => rw [blockBody_of_other ho hc, ih]
  | block ht _ hu _ ih₁ ih₂ =>
    rw [blockBody_of_open ht, ih₁, blockBody_of_close_inner hu, ih₂]

/-- The inside of a block is passed over with its closing brace. -/
theorem takes_blockBody {ts rest : List Located}
    (h : sequence [inside, Phrase.symbol .closeBrace] ts rest) : Takes (blockBody 0) ts rest := by
  obtain ⟨_, h, _, ⟨t, rfl, ht⟩, rfl⟩ := h
  exact ⟨(), (blockBody_of_inside h 0).trans (blockBody_of_close ht)⟩

/-- What stands in front of a block is passed over part by part, and no part is the brace. -/
theorem takes_blockHead {ts rest : List Located}
    (h : choice [Rule.settings,
      token fun t => t ≠ .symbol .openBrace ∧ t ≠ .symbol .openBracket] ts rest) :
    begins .openBrace ts = false ∧ Takes blockHead ts rest := by
  rcases choice_two.1 h with h | h
  · obtain ⟨_, ⟨t, rfl, ht⟩, hbody⟩ := h
    refine ⟨by rw [begins_eq_false, stops_cons, ht]; rfl, ?_⟩
    exact takes_accept_then (is_eq_true.2 ht)
      ((takes_settingsBody hbody).bind fun _ => takes_pure _ _)
  · obtain ⟨t, rfl, hbrace, hbracket⟩ := h
    refine ⟨begins_eq_false.2 (stops_cons.2 (is_eq_false.2 hbrace)), ?_⟩
    exact takes_accept_else (stops_cons.2 (is_eq_false.2 hbracket)) ⟨(), take_of_some rfl⟩

/-- A declaration that the grammar has for one that says nothing is passed over. -/
theorem takes_skipped {ts rest : List Located} (h : Rule.skipped ts rest) :
    Takes Grammar.skipped ts rest := by
  obtain ⟨mid, hstar, _, ⟨_, hopen, hblock⟩, rfl⟩ := h
  have hheads : Takes (repeatUntil (begins .openBrace) blockHead advances_blockHead) ts mid :=
    (takes_repeatUntil (P := fun _ => True) hstar (begins_of_symbol hopen) trivial
      fun _ _ h _ => ⟨(takes_blockHead h).1, trivial, (takes_blockHead h).2⟩).2
  exact (hheads.manyUntil hopen).bind fun _ => takes_blockBody hblock

/-! ## Types -/

/-- The second part of a type's name is taken if a point stands before it. -/
theorem takes_typeQualifier {ts rest : List Located}
    (h : optional (sequence [Phrase.symbol .dot, Rule.name]) ts rest) (hs : Stops (is .dot) rest) :
    Takes typeQualifier ts rest := by
  rcases h with rfl | ⟨_, ⟨t, rfl, ht⟩, _, h, rfl⟩
  · exact takes_accept_else hs (takes_pure _ _)
  · exact takes_accept_then (is_eq_true.2 ht) ((takes_name h).bind fun _ => takes_pure _ _)

/-- The arguments of a type are taken if a parenthesis opens, up to the one that closes. -/
theorem takes_typeArguments {ts rest : List Located}
    (h : optional (sequence [Phrase.symbol .openParen, star (token IsArgument),
      Phrase.symbol .closeParen]) ts rest) (hs : Stops (is .openParen) rest) :
    Takes typeArguments ts rest := by
  rcases h with rfl | ⟨_, ⟨t, rfl, ht⟩, _, h₁, _, h₂, rfl⟩
  · exact takes_accept_else hs (takes_pure _ _)
  · refine takes_accept_then (is_eq_true.2 ht) ?_
    refine (takes_takeAll exists_argument? h₁ (stops_of_symbol h₂ rfl)).bind fun _ => ?_
    exact (takes_symbol h₂).bind fun _ => takes_pure _ _

/-- The brackets of an array are taken where they stand, and not where they do not. -/
theorem takes_acceptBrackets {ts rest : List Located} (h : arraySuffix ts rest) :
    Takes (acceptBoth (is .openBracket) (is .closeBracket)) ts rest := by
  rcases choice_two.1 h with h | h
  · obtain ⟨_, ⟨t, rfl, ht⟩, _, ⟨u, rfl, hu⟩, rfl⟩ := h
    exact ⟨true, acceptBoth_of_true (is_eq_true.2 ht) (is_eq_true.2 hu)⟩
  · obtain ⟨hnot, rfl⟩ := h
    exact ⟨false, acceptBoth_of_not (mt beginsArray_iff.2 hnot)⟩

/-- What follows a type without brackets also stops what stands in front of the brackets. -/
theorem stops_of_arraySuffix {ts rest : List Located} (h : arraySuffix ts rest) {s : Symbol}
    (hne : s ≠ .openBracket) (hs : Stops (is s) rest) : Stops (is s) ts := by
  rcases choice_two.1 h with h | h
  · exact stops_of_symbol h.choose_spec.1 (is_eq_false.2 fun he => hne (Token.symbol.inj he).symm)
  · obtain ⟨_, rfl⟩ := h
    exact hs

/-- The type that begins with a word is taken in front of tokens that do not go on with it. -/
theorem takes_typeExpression {first : String} {t : Located} {ts rest : List Located}
    (h : Rule.typeExpression (t :: ts) rest) (hdot : Stops (is .dot) rest)
    (hparen : Stops (is .openParen) rest) : Takes (Grammar.typeExpression first) ts rest := by
  obtain ⟨_, ⟨_, ⟨⟩, _⟩, mid₁, h₁, mid₂, h₂, _, h₃, rfl⟩ := h
  have hparen := stops_of_arraySuffix h₃ (by decide) hparen
  have hdot : Stops (is .dot) mid₁ := by
    rcases h₂ with rfl | ⟨_, hopen, _⟩
    · exact stops_of_arraySuffix h₃ (by decide) hdot
    · exact stops_of_symbol hopen rfl
  refine (takes_typeQualifier h₁ hdot).bind fun _ => ?_
  refine (takes_typeArguments h₂ hparen).bind fun _ => ?_
  exact (takes_acceptBrackets h₃).bind fun _ => takes_pure _ _

/-- No type is taken where none is on the line. -/
theorem fieldType_of_not {line : Nat} {ts : List Located} (h : ¬ BeginsType line ts) :
    Grammar.fieldType (some line) ts = .ok (.absent, ts) := by
  rw [Grammar.fieldType, line?_then]
  split
  · rename_i hline
    cases ts with
    | nil => simp at hline
    | cons t rest =>
      have hl : t.position.line = line := by simpa using hline
      have hname : ¬ IsName t.token := fun hn => h ⟨t, rest, rfl, hn, hl⟩
      have hquoted : Stops (fun t => t.quoted?.isSome) (t :: rest) := by
        rw [stops_cons, Option.isSome_eq_false_iff, Option.isNone_iff_eq_none,
          Option.eq_none_iff_forall_ne_some]
        exact fun q hq => hname (.inr (exists_quoted?.1 ⟨q, hq⟩))
      have hword : Stops (fun t => t.word?.isSome) (t :: rest) := by
        rw [stops_cons, Option.isSome_eq_false_iff, Option.isNone_iff_eq_none,
          Option.eq_none_iff_forall_ne_some]
        exact fun w hw => hname (.inl (exists_word?.1 ⟨w, hw⟩))
      rw [bind_of_ok (take?_of_stops hquoted)]
      exact bind_of_ok (take?_of_stops hword)
  · rfl

/-- On the line of the field's name, a word begins the type. -/
theorem fieldType_of_word {line : Nat} {t : Located} {text : String} (ht : t.token = .identifier text)
    (hline : t.position.line = line) (ts : List Located) :
    Grammar.fieldType (some line) (t :: ts) = Grammar.typeExpression text ts := by
  rw [Grammar.fieldType, line?_then, if_pos (by simp [hline]),
    bind_of_ok (take?_of_stops (by simp [ht, Token.quoted?]))]
  exact bind_of_ok (take?_of_some (by rw [ht]; rfl))

/-- On the line of the field's name, a quoted text is the whole type. -/
theorem fieldType_of_quoted {line : Nat} {t : Located} {text : String} (ht : t.token = .quoted text)
    (hline : t.position.line = line) (ts : List Located) :
    Grammar.fieldType (some line) (t :: ts) = .ok (.quoted text, ts) := by
  rw [Grammar.fieldType, line?_then, if_pos (by simp [hline])]
  exact bind_of_ok (take?_of_some (by rw [ht]; rfl))

/-- The type of a field is taken in front of tokens that do not go on with it. -/
theorem takes_fieldType {line : Nat} {ts rest : List Located} (h : Rule.fieldType line ts rest)
    (hdot : Stops (is .dot) rest) (hparen : Stops (is .openParen) rest) :
    Takes (Grammar.fieldType (some line)) ts rest := by
  rcases choice_two.1 h with h | h
  · obtain ⟨⟨t, after, rfl, _, hline⟩, h⟩ := h
    rcases choice_two.1 h with h | h
    · obtain ⟨_, ⟨⟩, text, ht⟩ := h
      exact ⟨_, fieldType_of_quoted ht hline rest⟩
    · have htype := h
      obtain ⟨_, ⟨_, ⟨⟩, text, ht⟩, _⟩ := h
      unfold Takes
      rw [fieldType_of_word ht hline]
      exact takes_typeExpression htype hdot hparen
  · obtain ⟨hnot, rfl⟩ := h
    exact ⟨_, fieldType_of_not hnot⟩

/-! ## Tables -/

/-- A field is taken in front of what can follow a part of a body. -/
theorem takes_field {schemaName : Option String} {tableName : String} {ts rest : List Located}
    (h : Rule.field ts rest) (hfresh : Fresh rest) :
    Takes (Grammar.field schemaName tableName) ts rest := by
  obtain ⟨t, mid₁, rfl, ht, mid₂, h₁, _, h₂, rfl⟩ := h
  have hstops {s : Symbol} (hc : s ≠ .closeBrace) (ho : s ≠ .openBracket) :
      Stops (is s) mid₂ := by
    rcases h₂ with rfl | ⟨_, hopen, _⟩
    · exact hfresh.stops hc
    · exact stops_of_symbol hopen (is_eq_false.2 fun he => ho (Token.symbol.inj he).symm)
  unfold Takes
  rw [Grammar.field, line?_then]
  refine (takes_name ⟨t, rfl, ht⟩).bind fun _ => ?_
  refine (takes_fieldType h₁ (hstops (by decide) (by decide))
    (hstops (by decide) (by decide))).bind fun _ => ?_
  exact (takes_settings h₂ (hfresh.stops (by decide))).bind fun _ => takes_pure _ _

/-- The text of a note is taken whatever follows it. -/
theorem takes_noteText {ts rest : List Located} (h : Rule.text ts rest) :
    Takes noteText ts rest :=
  takes_take exists_text? h

/-- A special item is not begun if its second token is another symbol. -/
theorem not_beginsBoth_of_symbol {first second : Token → Bool} {t u : Located} {s : Symbol}
    {ts : List Located} (hu : u.token = .symbol s) (hs : second (.symbol s) = false) :
    ¬ BeginsBoth first second (t :: u :: ts) :=
  not_beginsBoth_cons (stops_cons.2 (by rw [hu, hs]))

/-- A special item is not begun if its first token is another keyword. -/
theorem not_beginsBoth_of_keyword {second : Token → Bool} {j k : Keyword} {t : Located}
    {ts : List Located} (ht : t.token.isKeyword j = true) (hne : j ≠ k) :
    ¬ BeginsBoth (·.isKeyword k) second (t :: ts) :=
  not_beginsBoth_of_stops (stops_cons.2 (isKeyword_of_ne ht hne))

/-- A note, a block of indexes and a field are each taken for what they are: the first two tokens
tell them apart. -/
theorem takes_tableItem {schemaName : Option String} {tableName : String} {ts rest : List Located}
    (h : Rule.item ts rest) (hfresh : Fresh rest) :
    Takes (tableItem schemaName tableName) ts rest := by
  unfold tableItem
  rcases choice_four.1 h with h | h | h | h
  · obtain ⟨_, ⟨t, rfl, ht⟩, _, ⟨u, rfl, hu⟩, _, htext, rfl⟩ := h
    exact takes_acceptBoth_then ht (is_eq_true.2 hu)
      ((takes_noteText htext).bind fun _ => takes_pure _ _)
  -- a note in braces, which is no note behind a colon
  · obtain ⟨_, ⟨t, rfl, ht⟩, _, ⟨u, rfl, hu⟩, _, h₁, _, h₂, rfl⟩ := h
    refine takes_acceptBoth_else (not_beginsBoth_of_symbol hu rfl) ?_
    refine takes_acceptBoth_then ht (is_eq_true.2 hu) ?_
    exact (takes_noteText h₁).bind fun _ => (takes_symbol h₂).bind fun _ => takes_pure _ _
  -- indexes, whose keyword is not that of a note
  · obtain ⟨_, ⟨t, rfl, ht⟩, _, ⟨_, ⟨u, rfl, hu⟩, hblock⟩, rfl⟩ := h
    refine takes_acceptBoth_else (not_beginsBoth_of_keyword ht (by decide)) ?_
    refine takes_acceptBoth_else (not_beginsBoth_of_keyword ht (by decide)) ?_
    refine takes_acceptBoth_then ht (is_eq_true.2 hu) ?_
    exact (takes_blockBody hblock).bind fun _ => takes_pure _ _
  -- a field, which the grammar has only where no special item begins
  · obtain ⟨hnot, h⟩ := h
    change ¬ BeginsSpecial ts at hnot
    rw [beginsSpecial_iff] at hnot
    refine takes_acceptBoth_else (fun h => hnot (.inl h)) ?_
    refine takes_acceptBoth_else (fun h => hnot (.inr (.inl h))) ?_
    refine takes_acceptBoth_else (fun h => hnot (.inr (.inr h))) ?_
    exact (takes_field h hfresh).bind fun _ => takes_pure _ _

/-- An item begins with a name. -/
theorem exists_name_of_item {ts rest : List Located} (h : Rule.item ts rest) :
    ∃ t after, ts = t :: after ∧ IsName t.token := by
  rcases choice_four.1 h with h | h | h | h
  · obtain ⟨_, ⟨t, rfl, ht⟩, _⟩ := h
    exact ⟨t, _, rfl, isName_of_isKeyword ht⟩
  · obtain ⟨_, ⟨t, rfl, ht⟩, _⟩ := h
    exact ⟨t, _, rfl, isName_of_isKeyword ht⟩
  · obtain ⟨_, ⟨t, rfl, ht⟩, _⟩ := h
    exact ⟨t, _, rfl, isName_of_isKeyword ht⟩
  · obtain ⟨_, t, after, rfl, ht, _⟩ := h
    exact ⟨t, after, rfl, ht⟩

/-- The other name of a table is taken if `as` stands before it. -/
theorem takes_tableAlias {ts rest : List Located}
    (h : optional (sequence [keyword .as, Rule.name]) ts rest)
    (hs : Stops (·.isKeyword .as) rest) : Takes tableAlias ts rest := by
  rcases h with rfl | ⟨_, ⟨t, rfl, ht⟩, _, h, rfl⟩
  · exact takes_accept_else hs (takes_pure _ _)
  · exact takes_accept_then ht ((takes_name h).bind fun _ => takes_pure _ _)

/-- The parts of a body, each of which begins with a name, and its closing brace. -/
theorem takes_body {item : Parser α} {hi : Advances item} {a : Phrase} {ts rest : List Located}
    (h : sequence [star a, Phrase.symbol .closeBrace] ts rest)
    (hname : ∀ ts mid, a ts mid → ∃ t after, ts = t :: after ∧ IsName t.token)
    (hitem : ∀ ts mid, a ts mid → Fresh mid → Takes item ts mid) :
    Takes (manyUntil .closeBrace item hi) ts rest := by
  obtain ⟨mid, hstar, _, hclose, rfl⟩ := h
  have hmid : Fresh mid := by
    obtain ⟨t, rfl, ht⟩ := hclose
    exact fresh_cons.2 (.inr ht)
  refine (takes_repeatUntil hstar (begins_of_symbol hclose) hmid ?_).2.manyUntil hclose
  intro ts mid h hmid
  obtain ⟨t, after, rfl, ht⟩ := hname ts mid h
  refine ⟨?_, fresh_cons.2 (.inl ht), hitem _ _ h hmid⟩
  rw [begins_eq_false, stops_cons]
  exact is_of_isName ht

/-- A table is taken up to its closing brace, whatever follows it. -/
theorem takes_table {ts rest : List Located} (h : Rule.table ts rest) :
    Takes Grammar.table ts rest := by
  obtain ⟨mid₁, h₁, mid₂, h₂, mid₃, h₃, mid₄, h₄, h₅⟩ := h
  have hstops {test : Token → Bool} (hbracket : test (.symbol .openBracket) = false)
      (hbrace : test (.symbol .openBrace) = false) : Stops test mid₂ := by
    rcases h₃ with rfl | ⟨_, hopen, _⟩
    · exact stops_of_symbol h₄ hbrace
    · exact stops_of_symbol hopen hbracket
  have hdot : Stops (is .dot) mid₁ := by
    rcases h₂ with rfl | ⟨_, ⟨t, rfl, ht⟩, _⟩
    · exact hstops rfl rfl
    · exact stops_cons.2 (is_of_isName (isName_of_isKeyword ht))
  refine (takes_qualifiedName h₁ hdot).bind fun ⟨_, _⟩ => ?_
  refine (takes_tableAlias h₂ (hstops rfl rfl)).bind fun _ => ?_
  refine (takes_settings h₃ (stops_of_symbol h₄ rfl)).bind fun _ => ?_
  refine (takes_symbol h₄).bind fun _ => ?_
  refine Takes.bind (takes_body h₅ (fun _ _ => exists_name_of_item) ?_) fun _ => takes_pure _ _
  intro ts mid h hmid
  obtain ⟨t, after, rfl, _⟩ := exists_name_of_item h
  exact takes_beforeEnd (takes_tableItem h hmid)

/-! ## References and enumerations -/

/-- A path begins with a name. -/
theorem exists_name_of_path {ts rest : List Located} (h : Rule.path ts rest) :
    ∃ t after, ts = t :: after ∧ IsName t.token := by
  obtain ⟨_, ⟨t, rfl, ht⟩, _⟩ := h
  exact ⟨t, _, rfl, ht⟩

/-- A reference is taken in front of what can follow a part of a body. -/
theorem takes_reference {n : Option String} {ts rest : List Located} (h : Rule.reference ts rest)
    (hfresh : Fresh rest) : Takes (Grammar.reference n) ts rest := by
  obtain ⟨mid₁, h₁, mid₂, h₂, mid₃, h₃, _, h₄, rfl⟩ := h
  have hdot₁ : Stops (is .dot) mid₁ := by
    obtain ⟨t, rfl, ht | ht | ht | ht⟩ := h₂ <;> rw [stops_cons, ht] <;> rfl
  have hdot₃ : Stops (is .dot) mid₃ := by
    rcases h₄ with rfl | ⟨_, hopen, _⟩
    · exact hfresh.stops (by decide)
    · exact stops_of_symbol hopen rfl
  refine (takes_path h₁ hdot₁).bind fun _ => (takes_relation h₂).bind fun _ => ?_
  refine (takes_path h₃ hdot₃).bind fun _ => ?_
  exact (takes_settings h₄ (hfresh.stops (by decide))).bind fun _ => takes_pure _ _

/-- References are taken, one on the line or any number between braces. -/
theorem takes_references {ts rest : List Located} (h : Rule.references ts rest)
    (hfresh : Fresh rest) : Takes Grammar.references ts rest := by
  obtain ⟨mid, h₁, _, hchoice, rfl⟩ := h
  have h₂ := choice_two.1 hchoice
  -- neither the colon nor the brace behind an absent name can be read as one
  have hname : Takes (take? Token.name?) ts mid := by
    rcases h₁ with rfl | ⟨t, rfl, ht⟩
    · refine ⟨none, take?_of_stops ?_⟩
      rcases h₂ with h | h
      · exact stops_of_symbol h.choose_spec.1 rfl
      · exact stops_of_symbol h.choose_spec.1 rfl
    · obtain ⟨n, hn⟩ := exists_name?.2 ht
      exact ⟨some n, take?_of_some hn⟩
  refine hname.bind fun n => ?_
  rcases h₂ with ⟨_, ⟨t, rfl, ht⟩, _, h, rfl⟩ | ⟨_, hopen, h⟩
  · exact takes_accept_then (is_eq_true.2 ht)
      ((takes_reference h hfresh).bind fun _ => takes_pure _ _)
  · refine takes_accept_else (stops_of_symbol hopen rfl) ?_
    refine (takes_symbol hopen).bind fun _ => ?_
    refine takes_body h (fun _ _ h => exists_name_of_path h.choose_spec.1) ?_
    intro ts mid h hmid
    -- a reference begins with a name, so the end of the input is not here
    obtain ⟨t, after, rfl, _⟩ := exists_name_of_path h.choose_spec.1
    exact takes_beforeEnd (takes_reference h hmid)

/-- A value of an enumeration is taken in front of what can follow a part of a body. -/
theorem takes_enumValue {ts rest : List Located}
    (h : sequence [Rule.name, optional Rule.settings] ts rest) (hfresh : Fresh rest) :
    Takes enumValue ts rest := by
  obtain ⟨_, h₁, _, h₂, rfl⟩ := h
  exact (takes_name h₁).bind fun _ =>
    (takes_settings h₂ (hfresh.stops (by decide))).bind fun _ => takes_pure _ _

/-- An enumeration is taken up to its closing brace, whatever follows it. -/
theorem takes_enumeration {ts rest : List Located} (h : Rule.enumeration ts rest) :
    Takes Grammar.enumeration ts rest := by
  obtain ⟨_, h₁, _, h₂, h₃⟩ := h
  refine (takes_qualifiedName h₁ (stops_of_symbol h₂ rfl)).bind fun ⟨_, _⟩ => ?_
  refine (takes_symbol h₂).bind fun _ => ?_
  refine Takes.bind (takes_body h₃ ?_ fun _ _ => takes_enumValue) fun _ => takes_pure _ _
  rintro _ _ ⟨_, ⟨t, rfl, ht⟩, _⟩
  exact ⟨t, _, rfl, ht⟩

/-! ## Documents -/

/-- One keyword stops the parser that looks for another. -/
theorem stops_isKeyword {j k : Keyword} {t : Located} {ts : List Located}
    (ht : t.token.isKeyword j = true) (hne : j ≠ k) : Stops (·.isKeyword k) (t :: ts) :=
  stops_cons.2 (isKeyword_of_ne ht hne)

/-- A declaration that is passed over begins with one of three keywords. -/
theorem exists_skippedKeyword {ts rest : List Located}
    (h : choice [keyword .project, keyword .tableGroup, keyword .note] ts rest) :
    ∃ t k, ts = t :: rest ∧ t.token.isKeyword k = true ∧
      (k = .project ∨ k = .tableGroup ∨ k = .note) := by
  rcases choice_three.1 h with h | h | h
  · obtain ⟨t, rfl, ht⟩ := h
    exact ⟨t, _, rfl, ht, .inl rfl⟩
  · obtain ⟨t, rfl, ht⟩ := h
    exact ⟨t, _, rfl, ht, .inr (.inl rfl)⟩
  · obtain ⟨t, rfl, ht⟩ := h
    exact ⟨t, _, rfl, ht, .inr (.inr rfl)⟩

/-- A declaration begins with its keyword. -/
theorem exists_keyword_of_declaration {ts rest : List Located} (h : Rule.declaration ts rest) :
    ∃ t after k, ts = t :: after ∧ t.token.isKeyword k = true := by
  rcases choice_four.1 h with h | h | h | h
  · obtain ⟨_, ⟨t, rfl, ht⟩, _⟩ := h
    exact ⟨t, _, _, rfl, ht⟩
  · obtain ⟨_, ⟨t, rfl, ht⟩, _⟩ := h
    exact ⟨t, _, _, rfl, ht⟩
  · obtain ⟨_, ⟨t, rfl, ht⟩, _⟩ := h
    exact ⟨t, _, _, rfl, ht⟩
  · obtain ⟨_, hkey, _⟩ := h
    obtain ⟨t, k, rfl, ht, _⟩ := exists_skippedKeyword hkey
    exact ⟨t, _, k, rfl, ht⟩

/-- A declaration is taken in front of what can follow it: its keyword tells which kind it is. -/
theorem takes_declaration {ts rest : List Located} (h : Rule.declaration ts rest)
    (hfresh : Fresh rest) : Takes Grammar.declaration ts rest := by
  unfold Grammar.declaration
  rcases choice_four.1 h with h | h | h | h
  · obtain ⟨_, ⟨t, rfl, ht⟩, _, htable, rfl⟩ := h
    exact takes_accept_then ht (takes_table htable)
  · obtain ⟨_, ⟨t, rfl, ht⟩, _, hreferences, rfl⟩ := h
    refine takes_accept_else (stops_isKeyword ht (by decide)) (takes_accept_then ht ?_)
    exact (takes_references hreferences hfresh).bind fun _ => takes_pure _ _
  · obtain ⟨_, ⟨t, rfl, ht⟩, _, henumeration, rfl⟩ := h
    refine takes_accept_else (stops_isKeyword ht (by decide)) ?_
    refine takes_accept_else (stops_isKeyword ht (by decide)) (takes_accept_then ht ?_)
    exact (takes_enumeration henumeration).bind fun _ => takes_pure _ _
  · obtain ⟨mid, hkey, _, hrest, rfl⟩ := h
    obtain ⟨t, k, rfl, ht, hk⟩ := exists_skippedKeyword hkey
    have hstops {j : Keyword} (hj : j ≠ k) : Stops (·.isKeyword j) (t :: mid) :=
      stops_isKeyword ht hj.symm
    have hskipped : isSkipped t.token = true := by
      rcases hk with rfl | rfl | rfl <;> simp [isSkipped, ht]
    refine takes_accept_else (hstops (by rcases hk with rfl | rfl | rfl <;> decide)) ?_
    refine takes_accept_else (hstops (by rcases hk with rfl | rfl | rfl <;> decide)) ?_
    refine takes_accept_else (hstops (by rcases hk with rfl | rfl | rfl <;> decide)) ?_
    exact takes_accept_then hskipped ((takes_skipped hrest).bind fun _ => takes_pure _ _)

/-- A document of the grammar is taken to its end. -/
theorem takes_declarations {ts : List Located} (h : Rule.document ts []) :
    Takes declarations ts [] := by
  have hfresh : Fresh [] := by simp [Fresh]
  refine Takes.bind (takes_repeatUntil h rfl hfresh ?_).2 fun _ => takes_pure _ _
  intro ts mid h hmid
  obtain ⟨t, after, k, rfl, ht⟩ := exists_keyword_of_declaration h
  exact ⟨rfl, fresh_cons.2 (.inl (isName_of_isKeyword ht)), takes_declaration h hmid⟩

/-! ## The language -/

/-- The parser takes exactly the documents of the grammar. -/
theorem takes_declarations_iff {ts : List Located} :
    Takes declarations ts [] ↔ Rule.document ts [] := by
  constructor
  · rintro ⟨d, h⟩
    exact (derives_declarations h).1
  · exact takes_declarations

/-- A token list has declarations exactly if it is a document of the grammar. -/
theorem exists_ofTokens_eq_ok_iff_document (tokens : List Located) (finish : Position) :
    (∃ d, Document.Declarations.ofTokens tokens finish = .ok d) ↔ Rule.document tokens [] := by
  rw [← takes_declarations_iff]
  unfold Document.Declarations.ofTokens
  constructor
  · rintro ⟨d, h⟩
    cases hd : declarations tokens with
    | error m => rw [hd] at h; contradiction
    | ok r =>
      obtain ⟨d', rest⟩ := r
      obtain ⟨_, rfl⟩ := derives_declarations hd
      exact ⟨d', hd⟩
  · rintro ⟨d, h⟩
    exact ⟨d, by rw [h]⟩

end SchemaDiagram.Grammar
