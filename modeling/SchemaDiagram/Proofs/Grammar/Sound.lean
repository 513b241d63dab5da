import SchemaDiagram.Grammar
import SchemaDiagram.Proofs.Grammar.Rule
import SchemaDiagram.Proofs.Parser.Step

/-!
# SchemaDiagram.Proofs.Grammar.Sound

Whatever a parser takes, the grammar derives.  There is one lemma `derives_p` for each parser `p`:
when `p` succeeds, the tokens before what it leaves are a phrase of the rule of the same name.
-/

namespace SchemaDiagram.Grammar

open SchemaDiagram.Parser Phrase Rule

/-! ## Kinds of token -/

/-- The tokens that are read as a word are the bare words. -/
theorem exists_word? {t : Token} : (∃ w, t.word? = some w) ↔ IsWord t := by
  cases t <;> simp [Token.word?, IsWord]

theorem exists_quoted? {t : Token} : (∃ w, t.quoted? = some w) ↔ IsQuoted t := by
  cases t <;> simp [Token.quoted?, IsQuoted]

/-- The tokens that are read as a name are words and quoted texts. -/
theorem exists_name? {t : Token} : (∃ n, t.name? = some n) ↔ IsName t := by
  cases t <;> simp [Token.name?, IsName, IsWord, IsQuoted]

theorem exists_text? {t : Token} : (∃ s, t.text? = some s) ↔ IsText t := by
  cases t <;> simp [Token.text?, IsText, IsQuoted]

theorem exists_number? {t : Token} : (∃ n, t.number? = some n) ↔ IsNumeral t := by
  cases t <;> simp [Token.number?, IsNumeral]

/-- The tokens that are read as a literal are texts and numbers. -/
theorem exists_literal? {t : Token} : (∃ s, t.literal? = some s) ↔ IsLiteral t := by
  cases t <;> simp [Token.literal?, IsLiteral, IsText, IsQuoted, IsNumeral]

/-- The tokens that are read as a relation are the four signs. -/
theorem exists_relation? {t : Token} : (∃ r, relation? t = some r) ↔ IsRelation t := by
  cases t with
  | symbol s => cases s <;> simp [relation?, IsRelation]
  | _ => simp [relation?, IsRelation]

/-- The tokens that are read as an argument of a type are those the grammar allows there. -/
theorem exists_argument? {t : Token} : (∃ a, Argument.ofToken? t = some a) ↔ IsArgument t := by
  cases t with
  | symbol s => cases s <;> simp [Argument.ofToken?, IsArgument, IsWord, IsNumeral]
  | _ => simp [Argument.ofToken?, IsArgument, IsWord, IsNumeral]

/-! ## The parts of parsers -/

/-- A token taken for what `f` reads of it is a phrase of the kind that `f` reads. -/
theorem derives_take {f : Token → Option α} {kind : Token → Prop} {e : Expected}
    (hk : ∀ {t}, (∃ a, f t = some a) ↔ kind t) {ts rest : List Located} {a : α}
    (h : take f e ts = .ok (a, rest)) : token kind ts rest := by
  obtain ⟨t, rfl, ha⟩ := take_eq_ok.1 h
  exact ⟨t, rfl, hk.1 ⟨a, ha⟩⟩

/-- A name that is taken is the phrase of a name. -/
theorem derives_name {e : Expected} {ts rest : List Located} {n : String}
    (h : Parser.name e ts = .ok (n, rest)) : Rule.name ts rest :=
  derives_take exists_name? h

/-- A symbol that is taken is the phrase of that symbol. -/
theorem derives_symbol {s : Symbol} {e : Expected} {ts rest : List Located} {u : Unit}
    (h : Parser.symbol s e ts = .ok (u, rest)) : Phrase.symbol s ts rest :=
  symbol_eq_ok.1 h

/-- A run of tokens taken one by one is a repetition of their kind, whatever comes behind. -/
theorem derives_takeAll {f : Token → Option α} {kind : Token → Prop}
    (hk : ∀ {t}, (∃ a, f t = some a) ↔ kind t) {ts rest : List Located} {as : List α}
    (h : takeAll f ts = .ok (as, rest)) : star (token kind) ts rest := by
  induction ts generalizing as with
  | nil => cases h; exact .nil
  | cons t ts ih =>
    cases ha : f t.token with
    | none =>
      rw [takeAll_of_stops (by simp [ha])] at h
      cases h
      exact .nil
    | some a =>
      rw [takeAll_of_some ha] at h
      obtain ⟨as', mid, h₁, h₂⟩ := bind_eq_ok.1 h
      cases h₂
      exact .cons ⟨t, rfl, hk.1 ⟨a, ha⟩⟩ (ih h₁)

/-- Names behind a separator each, up to where the loop stops. -/
theorem derives_namesAfter {separator : Symbol} {stop : Token → Bool} {e : Expected}
    {ts rest : List Located} {ns : List String}
    (h : namesAfter separator stop e ts = .ok (ns, rest)) :
    star (sequence [Phrase.symbol separator, Rule.name]) ts rest := by
  fun_induction namesAfter separator stop e ts generalizing ns with
  | case1 => cases h; exact .nil
  | case2 => contradiction
  | case3 => cases h; exact .nil
  | case4 => contradiction
  | case5 => contradiction
  | case6 t u ts hsep n hn ns' after hr ih =>
    cases h
    rw [Bool.and_eq_true] at hsep
    refine .cons ⟨u :: ts, ⟨t, rfl, is_eq_true.1 hsep.1⟩, ts, ⟨u, rfl, ?_⟩, rfl⟩ (ih hr)
    exact exists_name?.1 ⟨n, hn⟩
  | case7 => cases h; exact .nil

/-- Repeated items are phrases of the item, up to where the repetition stops. -/
theorem derives_repeatUntil {stop : List Located → Bool} {item : Parser α} {hi : Advances item}
    {a : Phrase} {ts rest : List Located} {xs : List α}
    (h : repeatUntil stop item hi ts = .ok (xs, rest))
    (hitem : ∀ ts x rest, stop ts = false → item ts = .ok (x, rest) → a ts rest) :
    star a ts rest ∧ stop rest = true := by
  fun_induction repeatUntil stop item hi ts generalizing xs with
  | case1 ts hs => cases h; exact ⟨.nil, hs⟩
  | case2 => contradiction
  | case3 => contradiction
  | case4 ts hgo x mid hx _ xs' after hr ih =>
    cases h
    obtain ⟨hstar, hs⟩ := ih hr
    exact ⟨.cons (hitem _ _ _ (Bool.eq_false_iff.2 hgo) hx) hstar, hs⟩

/-- Items up to a closing symbol. -/
theorem derives_manyUntil {close : Symbol} {item : Parser α} {hi : Advances item} {a : Phrase}
    {ts rest : List Located} {xs : List α} (h : manyUntil close item hi ts = .ok (xs, rest))
    (hitem : ∀ ts x rest, begins close ts = false → item ts = .ok (x, rest) → a ts rest) :
    sequence [star a, Phrase.symbol close] ts rest := by
  obtain ⟨xs', mid, h₁, h₂⟩ := bind_eq_ok.1 h
  obtain ⟨hstar, hs⟩ := derives_repeatUntil h₁ hitem
  obtain ⟨t, after, rfl, ht⟩ := begins_eq_true.1 hs
  rw [bind_of_ok (accept_of_true (is_eq_true.2 ht))] at h₂
  cases h₂
  exact ⟨_, hstar, _, ⟨t, rfl, ht⟩, rfl⟩

/-! ## Names and paths -/

/-- A table's name, with the schema in front of it or without. -/
theorem derives_qualifiedName {e : Expected} {ts rest : List Located}
    {q : Option String × String} (h : qualifiedName e ts = .ok (q, rest)) :
    qualified ts rest := by
  obtain ⟨first, mid, h₁, h₂⟩ := bind_eq_ok.1 h
  refine ⟨mid, derives_name h₁, rest, ?_, rfl⟩
  rcases begins_or_stops (is .dot) mid with ⟨t, after, rfl, ht⟩ | hs
  · rw [accept_then_of_true ht] at h₂
    obtain ⟨second, mid', h₃, h₄⟩ := bind_eq_ok.1 h₂
    cases h₄
    exact .inr ⟨after, ⟨t, rfl, is_eq_true.1 ht⟩, rest, derives_name h₃, rfl⟩
  · rw [accept_then_of_stops hs] at h₂
    cases h₂
    exact .inl rfl

/-- The fields in parentheses behind a point, or nothing if there is no such point. -/
theorem derives_fieldList {ts rest : List Located} {fs : Option (List String)}
    (h : fieldList ts = .ok (fs, rest)) : optional Rule.fieldList ts rest := by
  by_cases hb : BeginsBoth (is .dot) (is .openParen) ts
  · obtain ⟨t, u, mid, rfl, ht, hu⟩ := hb
    rw [fieldList, acceptBoth_then_of_true ht hu] at h
    obtain ⟨first, mid₁, h₁, h⟩ := bind_eq_ok.1 h
    obtain ⟨more, mid₂, h₂, h⟩ := bind_eq_ok.1 h
    obtain ⟨_, mid₃, h₃, h⟩ := bind_eq_ok.1 h
    cases h
    exact .inr ⟨_, ⟨t, rfl, is_eq_true.1 ht⟩, _, ⟨u, rfl, is_eq_true.1 hu⟩, _, derives_name h₁, _,
      derives_namesAfter h₂, _, derives_symbol h₃, rfl⟩
  · rw [fieldList, acceptBoth_then_of_not hb] at h
    cases h
    exact .inl rfl

/-- The names of a path joined by points, and the fields behind them. -/
theorem derives_path {ts rest : List Located} {p : Document.Path} (h : path ts = .ok (p, rest)) :
    Rule.path ts rest := by
  obtain ⟨first, mid₁, h₁, h⟩ := bind_eq_ok.1 h
  obtain ⟨more, mid₂, h₂, h⟩ := bind_eq_ok.1 h
  obtain ⟨fs, mid₃, h₃, h⟩ := bind_eq_ok.1 h
  cases h
  exact ⟨_, derives_name h₁, _, derives_namesAfter h₂, _, derives_fieldList h₃, rfl⟩

/-- The sign of a relation is one token. -/
theorem derives_relation {ts rest : List Located} {r : Document.Relation}
    (h : relation ts = .ok (r, rest)) : token IsRelation ts rest :=
  derives_take exists_relation? h

/-! ## Settings -/

/-- A value of several words has one at least. -/
theorem derives_wordsValue {ts rest : List Located} {s : String}
    (h : wordsValue ts = .ok (s, rest)) : sequence [word, star word] ts rest := by
  obtain ⟨first, mid₁, h₁, h⟩ := bind_eq_ok.1 h
  obtain ⟨more, mid₂, h₂, h⟩ := bind_eq_ok.1 h
  cases h
  exact ⟨_, derives_take exists_word? h₁, _, derives_takeAll exists_word? h₂, rfl⟩

/-- The text of a setting is a literal: a quoted text, a number, a colour or words. -/
theorem derives_settingText {ts rest : List Located} {s : String}
    (h : settingText ts = .ok (s, rest)) : literal ts rest := by
  rcases begins_or_stops (fun t => t.literal?.isSome) ts with ⟨t, after, rfl, ht⟩ | hs
  · obtain ⟨text, htext⟩ := Option.isSome_iff_exists.1 ht
    rw [settingText, bind_of_ok (take?_of_some htext)] at h
    cases h
    exact ⟨_, .head _, t, rfl, exists_literal?.1 ⟨_, htext⟩⟩
  · rw [settingText, bind_of_ok (take?_of_stops hs)] at h
    change (do if ← accept (is .dash) then negative else wordsValue) ts = _ at h
    rcases begins_or_stops (is .dash) ts with ⟨t, after, rfl, ht⟩ | hs
    · rw [accept_then_of_true ht] at h
      obtain ⟨n, mid, h₁, h⟩ := bind_eq_ok.1 h
      cases h
      exact ⟨_, .tail _ (.head _), _, ⟨t, rfl, is_eq_true.1 ht⟩, _,
        derives_take exists_number? h₁, rfl⟩
    · rw [accept_then_of_stops hs] at h
      exact ⟨_, .tail _ (.tail _ (.head _)), derives_wordsValue h⟩

/-- What stands behind the colon of a setting is a value for the setting's key. -/
theorem derives_settingValue {key : String} {ts rest : List Located} {v : Setting.Value}
    (h : settingValue key ts = .ok (v, rest)) : value key ts rest := by
  unfold settingValue at h
  unfold value
  split at h
  · rename_i hkey
    obtain ⟨r, mid₁, h₁, h⟩ := bind_eq_ok.1 h
    obtain ⟨target, mid₂, h₂, h⟩ := bind_eq_ok.1 h
    cases h
    rw [if_pos hkey]
    exact ⟨_, derives_relation h₁, _, derives_path h₂, rfl⟩
  · rename_i hkey
    obtain ⟨text, mid, h₁, h⟩ := bind_eq_ok.1 h
    cases h
    rw [if_neg hkey]
    exact derives_settingText h₁

/-- A setting without a colon has no value, and both are in the grammar. -/
theorem derives_optionalValue {key : String} {ts rest : List Located} {v : Option Setting.Value}
    (h : optionalValue key ts = .ok (v, rest)) :
    optional (sequence [Phrase.symbol .colon, value key]) ts rest := by
  rcases begins_or_stops (is .colon) ts with ⟨t, after, rfl, ht⟩ | hs
  · rw [optionalValue, accept_then_of_true ht] at h
    obtain ⟨v, mid, h₁, h⟩ := bind_eq_ok.1 h
    cases h
    exact .inr ⟨_, ⟨t, rfl, is_eq_true.1 ht⟩, _, derives_settingValue h₁, rfl⟩
  · rw [optionalValue, accept_then_of_stops hs] at h
    cases h
    exact .inl rfl

/-- A reference as the value of a setting is a relation and a path behind a colon. -/
theorem exists_of_optionalValue_link {key : String} {ts rest : List Located}
    {r : Document.Relation} {target : Document.Path}
    (h : optionalValue key ts = .ok (some (.link r target), rest)) :
    ∃ colon sign mid, ts = colon :: sign :: mid ∧ colon.token = .symbol .colon ∧
      relation? sign.token = some r ∧ Grammar.path mid = .ok (target, rest) := by
  rcases begins_or_stops (is .colon) ts with ⟨colon, after, rfl, hcolon⟩ | hs
  · rw [optionalValue, accept_then_of_true hcolon] at h
    obtain ⟨v, mid, hvalue, h⟩ := bind_eq_ok.1 h
    cases h
    unfold settingValue at hvalue
    split at hvalue
    · obtain ⟨r', mid₁, hrelation, hvalue⟩ := bind_eq_ok.1 hvalue
      obtain ⟨target', mid₂, hpath, hvalue⟩ := bind_eq_ok.1 hvalue
      cases hvalue
      obtain ⟨sign, rfl, hsign⟩ := take_eq_ok.1 hrelation
      exact ⟨colon, sign, mid₁, rfl, is_eq_true.1 hcolon, hsign, hpath⟩
    · obtain ⟨text, mid₁, -, hpure⟩ := bind_eq_ok.1 hvalue
      exact absurd (pure_eq_ok.1 hpure).1 (by simp)
  · rw [optionalValue, accept_then_of_stops hs] at h
    exact absurd (pure_eq_ok.1 h).1 (by simp)

/-- Only a bare word is read as a word, and it is read as itself. -/
theorem word?_eq_some {t : Token} {w : String} : t.word? = some w ↔ t = .identifier w := by
  cases t <;> simp [Token.word?]

/-- Tokens that are read as the words `ws` are these words. -/
theorem map_word?_eq {ts : List Located} {ws : List String} :
    ts.map (fun t => t.token.word?) = ws.map some ↔
      ts.map (·.token) = ws.map .identifier := by
  induction ts generalizing ws with
  | nil => cases ws <;> simp
  | cons t ts ih => cases ws <;> simp [word?_eq_some, ih]

/-- The words of a key. -/
theorem derives_settingKey {ts rest : List Located} {k : String}
    (h : settingKey ts = .ok (k, rest)) :
    ∃ texts, texts ≠ [] ∧ words texts ts rest ∧ k = Rule.key texts := by
  obtain ⟨first, mid, h₁, h₂⟩ := bind_eq_ok.1 h
  obtain ⟨more, taken, after, rfl, hmap, _, hr⟩ := exists_takeAll Token.word? mid
  rw [bind_of_ok hr] at h₂
  cases h₂
  obtain ⟨t, rfl, ht⟩ := take_eq_ok.1 h₁
  refine ⟨first :: more, List.cons_ne_nil _ _, ⟨t :: taken, rfl, ?_⟩, rfl⟩
  rw [List.map_cons, List.map_cons, word?_eq_some.1 ht, map_word?_eq.1 hmap]

/-- A setting, and the comma behind it or the bracket that closes the list. -/
theorem derives_setting {ts rest : List Located} {s : Setting}
    (h : Grammar.setting ts = .ok (s, rest)) :
    sequence [Rule.setting, Phrase.symbol .comma] ts rest ∨
      (Rule.setting ts rest ∧ begins .closeBracket rest = true) := by
  obtain ⟨k, mid₁, h₁, h⟩ := bind_eq_ok.1 h
  obtain ⟨v, mid₂, h₂, h⟩ := bind_eq_ok.1 h
  obtain ⟨_, mid₃, h₃, h⟩ := bind_eq_ok.1 h
  cases h
  obtain ⟨texts, hne, hwords, rfl⟩ := derives_settingKey h₁
  have hs : Rule.setting ts mid₂ := ⟨texts, mid₁, hne, hwords, derives_optionalValue h₂⟩
  unfold settingEnd at h₃
  split at h₃
  · rename_i hclose
    cases h₃
    exact .inr ⟨hs, hclose⟩
  · exact .inl ⟨_, hs, _, derives_symbol h₃, rfl⟩

/-- Settings up to the closing bracket: all but the last have a comma behind them. -/
theorem derives_repeatUntil_setting {ts rest : List Located} {ss : List Setting}
    (h : repeatUntil (begins .closeBracket) Grammar.setting advances_setting ts = .ok (ss, rest)) :
    sequence [star (sequence [Rule.setting, Phrase.symbol .comma]), optional Rule.setting]
      ts rest ∧ begins .closeBracket rest = true := by
  fun_induction repeatUntil (begins .closeBracket) Grammar.setting advances_setting ts
    generalizing ss with
  | case1 ts hs => cases h; exact ⟨⟨_, .nil, _, .inl rfl, rfl⟩, hs⟩
  | case2 => contradiction
  | case3 => contradiction
  | case4 ts _ s next hs _ ss' after hr ih =>
    cases h
    obtain ⟨⟨mid₁, hstar, mid₂, hlast, hmid⟩, hclose⟩ := ih hr
    rcases derives_setting hs with hcomma | ⟨hs', hnext⟩
    · exact ⟨⟨mid₁, .cons hcomma hstar, mid₂, hlast, hmid⟩, hclose⟩
    · rw [repeatUntil_of_stop hnext] at hr
      cases hr
      exact ⟨⟨ts, .nil, _, .inr hs', rfl⟩, hclose⟩

/-- Behind the opening bracket stand settings with a comma behind each but perhaps the last, then
the closing bracket. -/
theorem derives_settingsBody {ts rest : List Located} {ss : List Setting}
    (h : settingsBody ts = .ok (ss, rest)) :
    sequence [star (sequence [Rule.setting, Phrase.symbol .comma]), optional Rule.setting,
      Phrase.symbol .closeBracket] ts rest := by
  obtain ⟨ss', mid, h₁, h₂⟩ := bind_eq_ok.1 h
  obtain ⟨⟨mid₁, hstar, mid₂, hlast, rfl⟩, hs⟩ := derives_repeatUntil_setting h₁
  obtain ⟨t, after, rfl, ht⟩ := begins_eq_true.1 hs
  rw [bind_of_ok (accept_of_true (is_eq_true.2 ht))] at h₂
  cases h₂
  exact ⟨_, hstar, _, hlast, _, ⟨t, rfl, ht⟩, rfl⟩

/-- A list of settings in brackets, or nothing where no bracket opens. -/
theorem derives_settings {ts rest : List Located} {ss : List Setting}
    (h : Grammar.settings ts = .ok (ss, rest)) : optional Rule.settings ts rest := by
  rcases begins_or_stops (is .openBracket) ts with ⟨t, after, rfl, ht⟩ | hs
  · rw [Grammar.settings, accept_then_of_true ht] at h
    exact .inr ⟨_, ⟨t, rfl, is_eq_true.1 ht⟩, derives_settingsBody h⟩
  · rw [Grammar.settings, accept_then_of_stops hs] at h
    cases h
    exact .inl rfl

/-! ## Blocks -/

/-- What is inside of some open blocks, each up to its closing brace. -/
def insides : Nat → Phrase
  | 0 => empty
  | n + 1 => sequence [inside, Phrase.symbol .closeBrace, insides n]

section

variable {t : Located} {ts rest : List Located} {n : Nat}

/-- An opening brace inside a block needs one more closing brace. -/
theorem insides_of_open (ht : t.token = .symbol .openBrace) (h : insides (n + 2) ts rest) :
    insides (n + 1) (t :: ts) rest := by
  obtain ⟨_, h₁, _, ⟨u, rfl, hu⟩, _, ⟨mid, h₂, h₃⟩, rfl⟩ := h
  exact ⟨mid, .block ht h₁ hu h₂, h₃⟩

/-- A closing brace inside a block leaves one fewer to come. -/
theorem insides_of_close (ht : t.token = .symbol .closeBrace) (h : insides n ts rest) :
    insides (n + 1) (t :: ts) rest :=
  ⟨_, .nil, ts, ⟨t, rfl, ht⟩, rest, h, rfl⟩

/-- Any other token inside a block changes nothing about the braces to come. -/
theorem insides_of_other (ho : t.token ≠ .symbol .openBrace) (hc : t.token ≠ .symbol .closeBrace)
    (h : insides (n + 1) ts rest) : insides (n + 1) (t :: ts) rest := by
  obtain ⟨mid, h₁, h₂⟩ := h
  exact ⟨mid, .other ho hc h₁, h₂⟩

end

/-- A block that is passed over with `depth` blocks open inside it is balanced. -/
theorem derives_blockBody {depth : Nat} {ts rest : List Located} {u : Unit}
    (h : blockBody depth ts = .ok (u, rest)) : insides (depth + 1) ts rest := by
  induction ts generalizing depth with
  | nil => contradiction
  | cons t ts ih =>
    by_cases ho : t.token = .symbol .openBrace
    · rw [blockBody_of_open ho] at h
      exact insides_of_open ho (ih h)
    by_cases hc : t.token = .symbol .closeBrace
    · cases depth with
      | zero =>
        rw [blockBody_of_close hc] at h
        cases h
        exact insides_of_close hc rfl
      | succ depth =>
        rw [blockBody_of_close_inner hc] at h
        exact insides_of_close hc (ih h)
    · rw [blockBody_of_other ho hc] at h
      exact insides_of_other ho hc (ih h)

/-- A block that is passed over, from its opening brace on. -/
theorem derives_block {ts rest : List Located} {t : Located} {u : Unit}
    (ht : t.token = .symbol .openBrace) (h : blockBody 0 ts = .ok (u, rest)) :
    block (t :: ts) rest := by
  obtain ⟨mid, h₁, _, h₂, _, rfl, rfl⟩ := derives_blockBody h
  exact ⟨_, ⟨t, rfl, ht⟩, mid, h₁, _, h₂, rfl⟩

/-- A step towards the opening brace of a block is a list of settings or some other token. -/
theorem derives_blockHead {ts rest : List Located} {u : Unit}
    (hnot : begins .openBrace ts = false) (h : blockHead ts = .ok (u, rest)) :
    choice [Rule.settings, token fun t => t ≠ .symbol .openBrace ∧ t ≠ .symbol .openBracket]
      ts rest := by
  rcases begins_or_stops (is .openBracket) ts with ⟨t, after, rfl, ht⟩ | hs
  · rw [blockHead, accept_then_of_true ht] at h
    obtain ⟨ss, mid, h₁, h₂⟩ := bind_eq_ok.1 h
    cases h₂
    exact ⟨_, .head _, _, ⟨t, rfl, is_eq_true.1 ht⟩, derives_settingsBody h₁⟩
  · rw [blockHead, accept_then_of_stops hs] at h
    obtain ⟨t, rfl, _⟩ := take_eq_ok.1 h
    refine ⟨_, .tail _ (.head _), t, rfl, ?_, is_eq_false.1 (stops_cons.1 hs)⟩
    exact is_eq_false.1 (stops_cons.1 (begins_eq_false.1 hnot))

/-- A declaration that is passed over is its head and a balanced block. -/
theorem derives_skipped {ts rest : List Located} {u : Unit}
    (h : Grammar.skipped ts = .ok (u, rest)) : Rule.skipped ts rest := by
  obtain ⟨us, mid, h₁, h₂⟩ := bind_eq_ok.1 h
  obtain ⟨mid', hstar, _, ⟨t, rfl, ht⟩, rfl⟩ :=
    derives_manyUntil h₁ fun _ _ _ hs h => derives_blockHead hs h
  exact ⟨_, hstar, _, derives_block ht h₂, rfl⟩

/-! ## Types -/

/-- The second part of a type's name, behind a point, or nothing. -/
theorem derives_typeQualifier {ts rest : List Located} {s : String}
    (h : typeQualifier ts = .ok (s, rest)) :
    optional (sequence [Phrase.symbol .dot, Rule.name]) ts rest := by
  rcases begins_or_stops (is .dot) ts with ⟨t, after, rfl, ht⟩ | hs
  · rw [typeQualifier, accept_then_of_true ht] at h
    obtain ⟨more, mid, h₁, h₂⟩ := bind_eq_ok.1 h
    cases h₂
    exact .inr ⟨_, ⟨t, rfl, is_eq_true.1 ht⟩, _, derives_name h₁, rfl⟩
  · rw [typeQualifier, accept_then_of_stops hs] at h
    cases h
    exact .inl rfl

/-- The arguments of a type in parentheses, or nothing. -/
theorem derives_typeArguments {ts rest : List Located} {args : Option String}
    (h : typeArguments ts = .ok (args, rest)) :
    optional (sequence [Phrase.symbol .openParen, star (token IsArgument),
      Phrase.symbol .closeParen]) ts rest := by
  rcases begins_or_stops (is .openParen) ts with ⟨t, after, rfl, ht⟩ | hs
  · rw [typeArguments, accept_then_of_true ht] at h
    obtain ⟨args, mid₁, h₁, h⟩ := bind_eq_ok.1 h
    obtain ⟨_, mid₂, h₂, h⟩ := bind_eq_ok.1 h
    cases h
    exact .inr ⟨_, ⟨t, rfl, is_eq_true.1 ht⟩, _, derives_takeAll exists_argument? h₁, _,
      derives_symbol h₂, rfl⟩
  · rw [typeArguments, accept_then_of_stops hs] at h
    cases h
    exact .inl rfl

/-- The brackets of an array are two tokens side by side. -/
theorem beginsArray_iff {ts : List Located} :
    BeginsArray ts ↔ BeginsBoth (is .openBracket) (is .closeBracket) ts := by
  simp [BeginsArray, BeginsBoth, is_eq_true]

/-- The brackets of an array, or nothing where a list of settings may begin. -/
theorem derives_acceptBrackets {ts rest : List Located} {b : Bool}
    (h : acceptBoth (is .openBracket) (is .closeBracket) ts = .ok (b, rest)) :
    arraySuffix ts rest := by
  by_cases hb : BeginsBoth (is .openBracket) (is .closeBracket) ts
  · obtain ⟨t, u, mid, rfl, ht, hu⟩ := hb
    rw [acceptBoth_of_true ht hu] at h
    cases h
    exact ⟨_, .head _, _, ⟨t, rfl, is_eq_true.1 ht⟩, _, ⟨u, rfl, is_eq_true.1 hu⟩, rfl⟩
  · rw [acceptBoth_of_not hb] at h
    cases h
    exact ⟨_, .tail _ (.head _), mt beginsArray_iff.1 hb, rfl⟩

/-- A type that begins with a word: its qualifier, its arguments and the brackets of an array. -/
theorem derives_typeExpression {t : Located} {first : String} {ts rest : List Located}
    {type : Document.FieldType} (ht : IsWord t.token)
    (h : Grammar.typeExpression first ts = .ok (type, rest)) :
    Rule.typeExpression (t :: ts) rest := by
  obtain ⟨qualifier, mid₁, h₁, h⟩ := bind_eq_ok.1 h
  obtain ⟨args, mid₂, h₂, h⟩ := bind_eq_ok.1 h
  obtain ⟨isArray, mid₃, h₃, h⟩ := bind_eq_ok.1 h
  cases h
  exact ⟨_, ⟨t, rfl, ht⟩, _, derives_typeQualifier h₁, _, derives_typeArguments h₂, _,
    derives_acceptBrackets h₃, rfl⟩

/-- The type of a field stands on the line of the field's name, or there is none. -/
theorem derives_fieldType {line : Nat} {ts rest : List Located} {type : Document.FieldType}
    (h : Grammar.fieldType (some line) ts = .ok (type, rest)) : Rule.fieldType line ts rest := by
  rw [Grammar.fieldType, line?_then] at h
  split at h
  · rename_i hline
    obtain ⟨t, after, rfl⟩ : ∃ t after, ts = t :: after := by
      cases ts with
      | nil => simp at hline
      | cons t after => exact ⟨t, after, rfl⟩
    have hl : t.position.line = line := by simpa using hline
    rcases begins_or_stops (fun t => t.quoted?.isSome) (t :: after) with ⟨_, _, ⟨⟩, ht⟩ | hq
    · obtain ⟨text, htext⟩ := Option.isSome_iff_exists.1 ht
      have hquoted := exists_quoted?.1 ⟨_, htext⟩
      rw [bind_of_ok (take?_of_some htext)] at h
      cases h
      exact ⟨_, .head _, ⟨t, _, rfl, .inr hquoted, hl⟩, _, .head _, t, rfl, hquoted⟩
    · rw [bind_of_ok (take?_of_stops hq)] at h
      obtain ⟨first, mid, h₁, h⟩ := bind_eq_ok.1 h
      rcases begins_or_stops (fun t => t.word?.isSome) (t :: after) with ⟨_, _, ⟨⟩, ht⟩ | hw
      · obtain ⟨text, htext⟩ := Option.isSome_iff_exists.1 ht
        have hword := exists_word?.1 ⟨_, htext⟩
        rw [take?_of_some htext] at h₁
        cases h₁
        exact ⟨_, .head _, ⟨t, _, rfl, .inl hword, hl⟩, _, .tail _ (.head _),
          derives_typeExpression hword h⟩
      · rw [take?_of_stops hw] at h₁
        cases h₁
        cases h
        refine ⟨_, .tail _ (.head _), ?_, rfl⟩
        rintro ⟨_, _, ⟨⟩, hword | hquoted, _⟩
        · obtain ⟨w, hw'⟩ := exists_word?.2 hword
          simp [hw'] at hw
        · obtain ⟨q, hq'⟩ := exists_quoted?.2 hquoted
          simp [hq'] at hq
  · rename_i hline
    cases h
    refine ⟨_, .tail _ (.head _), ?_, rfl⟩
    rintro ⟨t, after, rfl, _, hl⟩
    simp [hl] at hline

/-! ## Tables -/

/-- A field is its name, its type and its settings. -/
theorem derives_field {schemaName : Option String} {tableName : String} {ts rest : List Located}
    {r : Document.Field × List Document.Reference}
    (h : Grammar.field schemaName tableName ts = .ok (r, rest)) : Rule.field ts rest := by
  rw [Grammar.field, line?_then] at h
  obtain ⟨fieldName, mid₁, h₁, h⟩ := bind_eq_ok.1 h
  obtain ⟨t, rfl, ht⟩ := take_eq_ok.1 h₁
  obtain ⟨type, mid₂, h₂, h⟩ := bind_eq_ok.1 h
  obtain ⟨ss, mid₃, h₃, h⟩ := bind_eq_ok.1 h
  cases h
  exact ⟨t, mid₁, rfl, exists_name?.1 ⟨_, ht⟩, _, derives_fieldType h₂, _, derives_settings h₃, rfl⟩

/-- The text of a note is one token. -/
theorem derives_noteText {ts rest : List Located} {s : String} (h : noteText ts = .ok (s, rest)) :
    Rule.text ts rest :=
  derives_take exists_text? h

/-- The special items of a table are told by two tokens: `note:`, `note {` and `indexes {`. -/
theorem beginsSpecial_iff {ts : List Located} :
    BeginsSpecial ts ↔ BeginsBoth (·.isKeyword .note) (is .colon) ts ∨
      BeginsBoth (·.isKeyword .note) (is .openBrace) ts ∨
      BeginsBoth (·.isKeyword .indexes) (is .openBrace) ts := by
  simp only [BeginsSpecial, BeginsBoth, is_eq_true]
  constructor
  · rintro ⟨t, u, rest, rfl, ⟨ht, hu | hu⟩ | ⟨ht, hu⟩⟩
    · exact .inl ⟨t, u, rest, rfl, ht, hu⟩
    · exact .inr (.inl ⟨t, u, rest, rfl, ht, hu⟩)
    · exact .inr (.inr ⟨t, u, rest, rfl, ht, hu⟩)
  · rintro (⟨t, u, rest, rfl, ht, hu⟩ | ⟨t, u, rest, rfl, ht, hu⟩ | ⟨t, u, rest, rfl, ht, hu⟩)
    · exact ⟨t, u, rest, rfl, .inl ⟨ht, .inl hu⟩⟩
    · exact ⟨t, u, rest, rfl, .inl ⟨ht, .inr hu⟩⟩
    · exact ⟨t, u, rest, rfl, .inr ⟨ht, hu⟩⟩

/-- A field among the items of a table stands where nothing else does. -/
theorem tableItem_eq_ok_field {schemaName : Option String} {tableName : String}
    {ts rest : List Located} {decl : Document.Field} {rs : List Document.Reference} :
    tableItem schemaName tableName ts = .ok (.field decl rs, rest) ↔
      ¬ BeginsSpecial ts ∧ Grammar.field schemaName tableName ts = .ok ((decl, rs), rest) := by
  rw [beginsSpecial_iff, not_or, not_or]
  constructor
  · intro h
    unfold tableItem at h
    -- notes and indexes are other items
    by_cases hcolon : BeginsBoth (·.isKeyword .note) (is .colon) ts
    · obtain ⟨t, u, mid, rfl, ht, hu⟩ := hcolon
      rw [acceptBoth_then_of_true ht hu] at h
      obtain ⟨s, mid₁, h₁, h⟩ := bind_eq_ok.1 h
      cases h
    rw [acceptBoth_then_of_not hcolon] at h
    by_cases hbrace : BeginsBoth (·.isKeyword .note) (is .openBrace) ts
    · obtain ⟨t, u, mid, rfl, ht, hu⟩ := hbrace
      rw [acceptBoth_then_of_true ht hu] at h
      obtain ⟨s, mid₁, h₁, h⟩ := bind_eq_ok.1 h
      obtain ⟨_, mid₂, h₂, h⟩ := bind_eq_ok.1 h
      cases h
    rw [acceptBoth_then_of_not hbrace] at h
    by_cases hindexes : BeginsBoth (·.isKeyword .indexes) (is .openBrace) ts
    · obtain ⟨t, u, mid, rfl, ht, hu⟩ := hindexes
      rw [acceptBoth_then_of_true ht hu] at h
      obtain ⟨_, mid₁, h₁, h⟩ := bind_eq_ok.1 h
      cases h
    rw [acceptBoth_then_of_not hindexes] at h
    obtain ⟨_, mid, h₁, h⟩ := bind_eq_ok.1 h
    cases h
    exact ⟨⟨hcolon, hbrace, hindexes⟩, h₁⟩
  · rintro ⟨⟨hcolon, hbrace, hindexes⟩, hfield⟩
    rw [tableItem, acceptBoth_then_of_not hcolon, acceptBoth_then_of_not hbrace,
      acceptBoth_then_of_not hindexes, bind_of_ok hfield]
    rfl

/-- An item of a table's body is a note, a block of indexes or a field. -/
theorem derives_tableItem {schemaName : Option String} {tableName : String}
    {ts rest : List Located} {i : TableItem}
    (h : tableItem schemaName tableName ts = .ok (i, rest)) : Rule.item ts rest := by
  unfold tableItem at h
  by_cases hcolon : BeginsBoth (·.isKeyword .note) (is .colon) ts
  · obtain ⟨t, u, mid, rfl, ht, hu⟩ := hcolon
    rw [acceptBoth_then_of_true ht hu] at h
    obtain ⟨s, mid₁, h₁, h⟩ := bind_eq_ok.1 h
    cases h
    exact ⟨_, .head _, _, ⟨t, rfl, ht⟩, _, ⟨u, rfl, is_eq_true.1 hu⟩, _, derives_noteText h₁, rfl⟩
  rw [acceptBoth_then_of_not hcolon] at h
  by_cases hbrace : BeginsBoth (·.isKeyword .note) (is .openBrace) ts
  · obtain ⟨t, u, mid, rfl, ht, hu⟩ := hbrace
    rw [acceptBoth_then_of_true ht hu] at h
    obtain ⟨s, mid₁, h₁, h⟩ := bind_eq_ok.1 h
    obtain ⟨_, mid₂, h₂, h⟩ := bind_eq_ok.1 h
    cases h
    exact ⟨_, .tail _ (.head _), _, ⟨t, rfl, ht⟩, _, ⟨u, rfl, is_eq_true.1 hu⟩, _,
      derives_noteText h₁, _, derives_symbol h₂, rfl⟩
  rw [acceptBoth_then_of_not hbrace] at h
  by_cases hindexes : BeginsBoth (·.isKeyword .indexes) (is .openBrace) ts
  · obtain ⟨t, u, mid, rfl, ht, hu⟩ := hindexes
    rw [acceptBoth_then_of_true ht hu] at h
    obtain ⟨_, mid₁, h₁, h⟩ := bind_eq_ok.1 h
    cases h
    exact ⟨_, .tail _ (.tail _ (.head _)), _, ⟨t, rfl, ht⟩, _,
      derives_block (is_eq_true.1 hu) h₁, rfl⟩
  rw [acceptBoth_then_of_not hindexes] at h
  obtain ⟨r, mid, h₁, h⟩ := bind_eq_ok.1 h
  cases h
  refine ⟨_, .tail _ (.tail _ (.tail _ (.head _))), ?_, derives_field h₁⟩
  show ¬ BeginsSpecial ts
  rw [beginsSpecial_iff]
  rintro (h | h | h)
  · exact hcolon h
  · exact hbrace h
  · exact hindexes h

/-- A parser that refuses the end of the input takes what the parser in it takes. -/
theorem derives_beforeEnd {p : Parser α} {e : Expected} {a : Phrase}
    {ts rest : List Located} {x : α} (h : p.beforeEnd e ts = .ok (x, rest))
    (hp : p ts = .ok (x, rest) → a ts rest) : a ts rest := by
  unfold Parser.beforeEnd at h
  split at h
  · contradiction
  · exact hp h

/-- The other name of a table behind `as`, or nothing. -/
theorem derives_tableAlias {ts rest : List Located} {n : Option String}
    (h : tableAlias ts = .ok (n, rest)) :
    optional (sequence [keyword .as, Rule.name]) ts rest := by
  rcases begins_or_stops (·.isKeyword .as) ts with ⟨t, after, rfl, ht⟩ | hs
  · rw [tableAlias, accept_then_of_true ht] at h
    obtain ⟨n, mid, h₁, h₂⟩ := bind_eq_ok.1 h
    cases h₂
    exact .inr ⟨_, ⟨t, rfl, ht⟩, _, derives_name h₁, rfl⟩
  · rw [tableAlias, accept_then_of_stops hs] at h
    cases h
    exact .inl rfl

/-- A table is its name, its alias, its settings and the items between braces. -/
theorem derives_table {ts rest : List Located} {d : Document.Declarations}
    (h : Grammar.table ts = .ok (d, rest)) : Rule.table ts rest := by
  obtain ⟨⟨schemaName, tableName⟩, mid₁, h₁, h⟩ := bind_eq_ok.1 h
  obtain ⟨aliasName, mid₂, h₂, h⟩ := bind_eq_ok.1 h
  obtain ⟨ss, mid₃, h₃, h⟩ := bind_eq_ok.1 h
  obtain ⟨_, mid₄, h₄, h⟩ := bind_eq_ok.1 h
  obtain ⟨items, mid₅, h₅, h⟩ := bind_eq_ok.1 h
  cases h
  exact ⟨_, derives_qualifiedName h₁, _, derives_tableAlias h₂, _, derives_settings h₃, _,
    derives_symbol h₄, derives_manyUntil h₅ fun _ _ _ _ h => derives_beforeEnd h derives_tableItem⟩

/-! ## References and enumerations -/

/-- A reference is two paths with a relation between them, and its settings. -/
theorem derives_reference {n : Option String} {ts rest : List Located} {r : Document.Reference}
    (h : Grammar.reference n ts = .ok (r, rest)) : Rule.reference ts rest := by
  obtain ⟨source, mid₁, h₁, h⟩ := bind_eq_ok.1 h
  obtain ⟨r, mid₂, h₂, h⟩ := bind_eq_ok.1 h
  obtain ⟨target, mid₃, h₃, h⟩ := bind_eq_ok.1 h
  obtain ⟨ss, mid₄, h₄, h⟩ := bind_eq_ok.1 h
  cases h
  exact ⟨_, derives_path h₁, _, derives_relation h₂, _, derives_path h₃, _, derives_settings h₄,
    rfl⟩

/-- A name that may be left out. -/
theorem derives_take?_name {ts rest : List Located} {n : Option String}
    (h : take? Token.name? ts = .ok (n, rest)) : optional Rule.name ts rest := by
  rcases begins_or_stops (fun t => t.name?.isSome) ts with ⟨t, after, rfl, ht⟩ | hs
  · obtain ⟨n, hn⟩ := Option.isSome_iff_exists.1 ht
    rw [take?_of_some hn] at h
    cases h
    exact .inr ⟨t, rfl, exists_name?.1 ⟨_, hn⟩⟩
  · rw [take?_of_stops hs] at h
    cases h
    exact .inl rfl

/-- References stand behind a colon, one, or between braces, any number. -/
theorem derives_references {ts rest : List Located} {rs : List Document.Reference}
    (h : Grammar.references ts = .ok (rs, rest)) : Rule.references ts rest := by
  obtain ⟨n, mid, h₁, h⟩ := bind_eq_ok.1 h
  refine ⟨mid, derives_take?_name h₁, rest, ?_, rfl⟩
  rcases begins_or_stops (is .colon) mid with ⟨t, after, rfl, ht⟩ | hs
  · rw [accept_then_of_true ht] at h
    obtain ⟨r, mid, h₁, h⟩ := bind_eq_ok.1 h
    cases h
    exact ⟨_, .head _, _, ⟨t, rfl, is_eq_true.1 ht⟩, _, derives_reference h₁, rfl⟩
  · rw [accept_then_of_stops hs] at h
    obtain ⟨_, mid, h₁, h⟩ := bind_eq_ok.1 h
    exact ⟨_, .tail _ (.head _), _, derives_symbol h₁,
      derives_manyUntil h fun _ _ _ _ h => derives_beforeEnd h derives_reference⟩

/-- A value of an enumeration has a name and perhaps settings. -/
theorem derives_enumValue {ts rest : List Located} {v : String}
    (h : enumValue ts = .ok (v, rest)) :
    sequence [Rule.name, optional Rule.settings] ts rest := by
  obtain ⟨v, mid₁, h₁, h⟩ := bind_eq_ok.1 h
  obtain ⟨ss, mid₂, h₂, h⟩ := bind_eq_ok.1 h
  cases h
  exact ⟨_, derives_name h₁, _, derives_settings h₂, rfl⟩

/-- An enumeration is its name and the values between braces. -/
theorem derives_enumeration {ts rest : List Located} {e : Document.Enumeration}
    (h : Grammar.enumeration ts = .ok (e, rest)) : Rule.enumeration ts rest := by
  obtain ⟨⟨schemaName, enumName⟩, mid₁, h₁, h⟩ := bind_eq_ok.1 h
  obtain ⟨_, mid₂, h₂, h⟩ := bind_eq_ok.1 h
  obtain ⟨vs, mid₃, h₃, h⟩ := bind_eq_ok.1 h
  cases h
  exact ⟨_, derives_qualifiedName h₁, _, derives_symbol h₂,
    derives_manyUntil h₃ fun _ _ _ _ h => derives_enumValue h⟩

/-! ## Documents -/

/-- Three keywords begin a declaration that is passed over. -/
theorem isSkipped_iff {t : Token} : isSkipped t = true ↔
    t.isKeyword .project = true ∨ t.isKeyword .tableGroup = true ∨ t.isKeyword .note = true := by
  simp [isSkipped, or_assoc]

/-- The keyword of a declaration that is passed over is one of the grammar's three. -/
theorem derives_skippedKeyword {t : Located} {ts : List Located} (h : isSkipped t.token = true) :
    choice [keyword .project, keyword .tableGroup, keyword .note] (t :: ts) ts := by
  rcases isSkipped_iff.1 h with h | h | h
  · exact ⟨_, .head _, t, rfl, h⟩
  · exact ⟨_, .tail _ (.head _), t, rfl, h⟩
  · exact ⟨_, .tail _ (.tail _ (.head _)), t, rfl, h⟩

/-- A declaration is that of a table, a reference or an enumeration, or is passed over. -/
theorem derives_declaration {ts rest : List Located} {d : Document.Declarations}
    (h : Grammar.declaration ts = .ok (d, rest)) : Rule.declaration ts rest := by
  unfold Grammar.declaration at h
  rcases begins_or_stops (·.isKeyword .table) ts with ⟨t, after, rfl, ht⟩ | htable
  · rw [accept_then_of_true ht] at h
    exact ⟨_, .head _, _, ⟨t, rfl, ht⟩, _, derives_table h, rfl⟩
  rw [accept_then_of_stops htable] at h
  rcases begins_or_stops (·.isKeyword .ref) ts with ⟨t, after, rfl, ht⟩ | href
  · rw [accept_then_of_true ht] at h
    obtain ⟨rs, mid, h₁, h⟩ := bind_eq_ok.1 h
    cases h
    exact ⟨_, .tail _ (.head _), _, ⟨t, rfl, ht⟩, _, derives_references h₁, rfl⟩
  rw [accept_then_of_stops href] at h
  rcases begins_or_stops (·.isKeyword .enum) ts with ⟨t, after, rfl, ht⟩ | henum
  · rw [accept_then_of_true ht] at h
    obtain ⟨e, mid, h₁, h⟩ := bind_eq_ok.1 h
    cases h
    exact ⟨_, .tail _ (.tail _ (.head _)), _, ⟨t, rfl, ht⟩, _, derives_enumeration h₁, rfl⟩
  rw [accept_then_of_stops henum] at h
  rcases begins_or_stops isSkipped ts with ⟨t, after, rfl, ht⟩ | hskipped
  · rw [accept_then_of_true ht] at h
    obtain ⟨_, mid, h₁, h⟩ := bind_eq_ok.1 h
    cases h
    exact ⟨_, .tail _ (.tail _ (.tail _ (.head _))), _, derives_skippedKeyword ht, _,
      derives_skipped h₁, rfl⟩
  · rw [accept_then_of_stops hskipped] at h
    contradiction

/-- Declarations that are taken are a whole document: nothing is left behind them. -/
theorem derives_declarations {ts rest : List Located} {d : Document.Declarations}
    (h : declarations ts = .ok (d, rest)) : Rule.document ts rest ∧ rest = [] := by
  obtain ⟨ds, mid, h₁, h⟩ := bind_eq_ok.1 h
  cases h
  obtain ⟨hstar, hs⟩ := derives_repeatUntil h₁ fun _ _ _ _ h => derives_declaration h
  exact ⟨hstar, List.isEmpty_iff.1 hs⟩

end SchemaDiagram.Grammar
