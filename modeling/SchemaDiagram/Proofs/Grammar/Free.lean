import SchemaDiagram.Proofs.Grammar.Complete

/-!
# SchemaDiagram.Proofs.Grammar.Free

Which parts of the grammar depend on what follows them.

Most parts are `Free`.  A field is not: whether it has a type, and whether its type is an array,
depends on the tokens behind it.  It stays a field in front of other tokens if these are `Fresh` and
begin no type where none began before; such tokens `Replaces` speaks of.  A closing brace is one of
them, which makes tables and declarations free again.
-/

namespace SchemaDiagram.Rule

open Phrase SchemaDiagram.Parser Grammar

/-! ## Parts that do not depend on what follows -/

/-- A choice of two parts is free if both are. -/
theorem free_choice_pair {a b : Phrase} (ha : Free a) (hb : Free b) : Free (choice [a, b]) :=
  free_choice (by simp [ha, hb])

/-- A table's name is a name wherever it stands. -/
theorem free_qualified : Free qualified :=
  (free_token _).seq (((free_token _).seq ((free_token _).seq free_empty)).optional.seq free_empty)

theorem free_names (s : Symbol) : Free (star (sequence [symbol s, name])) :=
  ((free_token _).seq ((free_token _).seq free_empty)).star

/-- A list of fields ends with its own parenthesis. -/
theorem free_fieldList : Free fieldList :=
  (free_token _).seq ((free_token _).seq ((free_token _).seq ((free_names _).seq
    ((free_token _).seq free_empty))))

/-- A path is a path whatever follows it: that it might go on is for the parser to see. -/
theorem free_path : Free path :=
  (free_token _).seq ((free_names _).seq (free_fieldList.optional.seq free_empty))

theorem free_words : Free (sequence [word, star word]) :=
  (free_token _).seq ((free_token _).star.seq free_empty)

/-- A literal is free in each of its three forms. -/
theorem free_literal : Free literal := by
  refine free_choice fun a ha => ?_
  simp only [List.mem_cons, List.not_mem_nil, or_false] at ha
  rcases ha with rfl | rfl | rfl
  · exact free_token _
  · exact (free_token _).seq ((free_token _).seq free_empty)
  · exact free_words

/-- The value of a setting is free, a reference or a literal. -/
theorem free_value (key : String) : Free (value key) := by
  unfold value
  split
  · exact (free_token _).seq (free_path.seq free_empty)
  · exact free_literal

theorem free_optionalValue (key : String) :
    Free (optional (sequence [symbol .colon, value key])) :=
  ((free_token _).seq ((free_value key).seq free_empty)).optional

/-- The words of a key are free. -/
theorem free_wordsOf (texts : List String) : Free (words texts) := by
  rintro ts rest ⟨taken, rfl, h⟩
  exact ⟨taken, rfl, fun rest' => ⟨taken, rfl, h⟩⟩

/-- A setting is free. -/
theorem free_setting : Free setting := by
  rintro ts rest ⟨texts, mid, hne, h₁, h₂⟩
  obtain ⟨xs, rfl, hxs⟩ := free_wordsOf texts h₁
  obtain ⟨ys, rfl, hys⟩ := free_optionalValue (key texts) h₂
  refine ⟨xs ++ ys, by simp, fun rest' => ⟨texts, ys ++ rest', hne, ?_, hys rest'⟩⟩
  rw [List.append_assoc]
  exact hxs _

/-- A list of settings ends with its own bracket. -/
theorem free_settings : Free settings :=
  (free_token _).seq (((free_setting.seq ((free_token _).seq free_empty)).star).seq
    (free_setting.optional.seq ((free_token _).seq free_empty)))

/-- The inside of a block is free: its braces are balanced in themselves. -/
theorem free_inside : Free inside := by
  intro ts rest h
  induction h with
  | nil => exact ⟨[], rfl, fun _ => .nil⟩
  | @other t _ _ ho hc _ ih =>
    obtain ⟨xs, rfl, hxs⟩ := ih
    exact ⟨t :: xs, rfl, fun rest' => .other ho hc (hxs rest')⟩
  | @block t u _ _ _ ht _ hu _ ih₁ ih₂ =>
    obtain ⟨xs, rfl, hxs⟩ := ih₁
    obtain ⟨ys, rfl, hys⟩ := ih₂
    refine ⟨t :: xs ++ u :: ys, by simp, fun rest' => ?_⟩
    have h := inside.block ht (hxs (u :: (ys ++ rest'))) hu (hys rest')
    simpa using h

/-- A block ends with its own brace. -/
theorem free_block : Free block :=
  (free_token _).seq (free_inside.seq ((free_token _).seq free_empty))

/-- What stands in front of a block is free, settings or other tokens. -/
theorem free_blockHead : Free (choice [settings,
    token fun t => t ≠ .symbol .openBrace ∧ t ≠ .symbol .openBracket]) :=
  free_choice_pair free_settings (free_token _)

theorem free_skipped : Free skipped := free_blockHead.star.seq (free_block.seq free_empty)

theorem free_typeQualifier : Free (optional (sequence [symbol .dot, name])) :=
  ((free_token _).seq ((free_token _).seq free_empty)).optional

/-- The arguments of a type end with their own parenthesis. -/
theorem free_typeArguments : Free (optional (sequence [symbol .openParen,
    star (token IsArgument), symbol .closeParen])) :=
  ((free_token _).seq ((free_token _).star.seq ((free_token _).seq free_empty))).optional

theorem free_reference : Free reference :=
  free_path.seq ((free_token _).seq (free_path.seq (free_settings.optional.seq free_empty)))

/-- References are free, one on the line or any number between braces. -/
theorem free_references : Free references :=
  (free_token _).optional.seq ((free_choice_pair
    ((free_token _).seq (free_reference.seq free_empty))
    ((free_token _).seq (free_reference.star.seq ((free_token _).seq free_empty)))).seq free_empty)

theorem free_enumValue : Free (sequence [name, optional settings]) :=
  (free_token _).seq (free_settings.optional.seq free_empty)

/-- An enumeration ends with its own brace. -/
theorem free_enumeration : Free enumeration :=
  free_qualified.seq ((free_token _).seq (free_enumValue.star.seq
    ((free_token _).seq free_empty)))

/-! ## Parts that look ahead -/

/-- Settings begin with one bracket and end with another. -/
theorem exists_settings_append {ts rest : List Located} (h : settings ts rest) :
    ∃ t taken u, ts = t :: taken ++ u :: rest ∧ t.token = .symbol .openBracket ∧
      ∀ rest', settings (t :: taken ++ u :: rest') rest' := by
  obtain ⟨_, ⟨t, rfl, ht⟩, _, h₁, _, h₂, _, ⟨u, rfl, hu⟩, rfl⟩ := h
  obtain ⟨xs, rfl, hxs⟩ := (free_setting.seq ((free_token _).seq free_empty)).star h₁
  obtain ⟨ys, rfl, hys⟩ := free_setting.optional h₂
  refine ⟨t, xs ++ ys, u, by simp, ht, fun rest' => ?_⟩
  rw [List.cons_append, List.append_assoc]
  exact ⟨_, ⟨t, rfl, ht⟩, _, hxs _, _, hys _, _, ⟨u, rfl, hu⟩, rfl⟩

/-- A symbol begins no type. -/
theorem not_beginsType_of_symbol {line : Nat} {t : Located} {ts : List Located} {s : Symbol}
    (ht : t.token = .symbol s) : ¬ BeginsType line (t :: ts) := by
  rintro ⟨_, _, ⟨⟩, ⟨_, h⟩ | ⟨_, h⟩, _⟩
  · rw [ht] at h; contradiction
  · rw [ht] at h; contradiction

/-- What can follow a part of a body does not begin the brackets of an array. -/
theorem not_beginsArray_of_fresh {ts : List Located} (h : Fresh ts) : ¬ BeginsArray ts := by
  have hs : Stops (is .openBracket) ts := h.stops (by decide)
  exact mt Grammar.beginsArray_iff.1 (not_beginsBoth_of_stops hs)

/-- Two brackets are the suffix of an array in front of any tokens; no suffix is one in front of
tokens that do not begin with two brackets. -/
theorem exists_arraySuffix_append {ts rest : List Located} (h : arraySuffix ts rest) :
    ∃ taken, ts = taken ++ rest ∧ ∀ rest', (BeginsArray rest' → BeginsArray rest) →
      arraySuffix (taken ++ rest') rest' := by
  rcases choice_two.1 h with h | h
  · obtain ⟨taken, rfl, htaken⟩ :=
      ((free_token _).seq ((free_token _).seq free_empty) : Free (sequence [_, _])) h
    exact ⟨taken, rfl, fun rest' _ => ⟨_, .head _, htaken rest'⟩⟩
  · obtain ⟨hnot, rfl⟩ := h
    exact ⟨[], rfl, fun rest' hr => ⟨_, .tail _ (.head _), mt hr hnot, rfl⟩⟩

/-- A type that begins with a word stays one in front of other tokens, unless these begin the
brackets of an array and those before did not. -/
theorem exists_typeExpression_append {ts rest : List Located} (h : typeExpression ts rest) :
    ∃ t taken, ts = t :: taken ++ rest ∧ IsWord t.token ∧
      ∀ rest', (BeginsArray rest' → BeginsArray rest) → typeExpression (t :: taken ++ rest') rest' := by
  obtain ⟨_, ⟨t, rfl, ht⟩, _, h₁, _, h₂, _, h₃, rfl⟩ := h
  obtain ⟨xs, rfl, hxs⟩ := free_typeQualifier h₁
  obtain ⟨ys, rfl, hys⟩ := free_typeArguments h₂
  obtain ⟨zs, rfl, hzs⟩ := exists_arraySuffix_append h₃
  refine ⟨t, xs ++ (ys ++ zs), by simp, ht, fun rest' hr => ?_⟩
  rw [List.cons_append, List.append_assoc, List.append_assoc]
  exact ⟨_, ⟨t, rfl, ht⟩, _, hxs _, _, hys _, _, hzs _ hr, rfl⟩

/-- A type stays the type in front of other tokens that do not continue it. -/
theorem exists_fieldType_append {line : Nat} {ts rest : List Located}
    (h : fieldType line ts rest) :
    ∃ taken, ts = taken ++ rest ∧ ∀ rest', (BeginsType line rest' → BeginsType line rest) →
      (BeginsArray rest' → BeginsArray rest) → fieldType line (taken ++ rest') rest' := by
  rcases choice_two.1 h with h | h
  · obtain ⟨⟨t, after, rfl, hname, hline⟩, h⟩ := h
    rcases choice_two.1 h with h | h
    · obtain ⟨_, ⟨⟩, ht⟩ := h
      refine ⟨[t], rfl, fun rest' _ _ => ?_⟩
      exact ⟨_, .head _, ⟨t, rest', rfl, hname, hline⟩, _, .head _, t, rfl, ht⟩
    · obtain ⟨_, taken, ⟨⟩, _, htaken⟩ := exists_typeExpression_append h
      refine ⟨t :: taken, rfl, fun rest' _ hr => ?_⟩
      exact ⟨_, .head _, ⟨t, taken ++ rest', rfl, hname, hline⟩, _, .tail _ (.head _),
        htaken rest' hr⟩
  · obtain ⟨hnot, rfl⟩ := h
    exact ⟨[], rfl, fun rest' hr _ => ⟨_, .tail _ (.head _), mt hr hnot, rfl⟩⟩

/-- Whether what follows can take the place of what followed before: it is fresh, and no type if
there was none. -/
def Replaces (before after : List Located) : Prop :=
  Fresh after ∧ ∀ line, BeginsType line after → BeginsType line before

/-- A field stays one in front of tokens that can take the place of those behind it. -/
theorem exists_field_append {ts rest : List Located} (h : field ts rest) :
    ∃ t taken, ts = t :: taken ++ rest ∧
      ∀ rest', Replaces rest rest' → field (t :: taken ++ rest') rest' := by
  obtain ⟨t, _, rfl, ht, mid, h₁, _, h₂, rfl⟩ := h
  obtain ⟨xs, rfl, hxs⟩ := exists_fieldType_append h₁
  rcases h₂ with rfl | h₂
  · refine ⟨t, xs, rfl, fun rest' ⟨hfresh, htype⟩ => ?_⟩
    refine ⟨t, xs ++ rest', rfl, ht, rest', hxs rest' (htype _) ?_, rest', .inl rfl, rfl⟩
    exact fun harray => absurd harray (not_beginsArray_of_fresh hfresh)
  · obtain ⟨u, taken, v, rfl, hu, hall⟩ := exists_settings_append h₂
    refine ⟨t, xs ++ u :: taken ++ [v], by simp, fun rest' _ => ?_⟩
    have hsettings := hall rest'
    refine ⟨t, xs ++ (u :: taken ++ v :: rest'), by simp, ht, _, hxs _ ?_ ?_, _, .inr hsettings,
      rfl⟩
    · exact fun htype => absurd htype (not_beginsType_of_symbol hu)
    · rintro ⟨_, _, _, heq, ho, hc⟩
      cases taken with
      | nil => cases heq; exact ⟨u, v, _, rfl, ho, hc⟩
      | cons w taken => cases heq; exact ⟨u, _, _, rfl, ho, hc⟩

/-- A field in front of fresh tokens is no other item. -/
theorem not_beginsSpecial_of_field {ts rest : List Located} (h : field ts rest)
    (hfresh : Fresh rest) : ¬ BeginsSpecial ts := by
  rintro ⟨_, u, after, rfl, hspecial⟩
  have hu : u.token = .symbol .colon ∨ u.token = .symbol .openBrace := by
    rcases hspecial with ⟨_, hu⟩ | ⟨_, hu⟩
    · exact hu
    · exact .inr hu
  have hname : ¬ IsName u.token := by
    rintro (⟨_, h⟩ | ⟨_, h⟩) <;> rw [h] at hu <;> simp at hu
  obtain ⟨_, _, ⟨⟩, _, _, hchoice, _, hsettings, rfl⟩ := h
  rcases choice_two.1 hchoice with htype | htype
  · obtain ⟨⟨_, _, ⟨⟩, h, _⟩, _⟩ := htype
    exact hname h
  · obtain ⟨_, rfl⟩ := htype
    rcases hsettings with rfl | ⟨_, ⟨_, ⟨⟩, h⟩, _⟩
    · rcases fresh_cons.1 hfresh with h | h
      · exact hname h
      · rw [h] at hu
        simp at hu
    · rw [h] at hu
      simp at hu

/-- Of the four kinds of items, only a field is not free. -/
theorem free_or_field {a : Phrase} (ha : a ∈ [sequence [keyword .note, symbol .colon, text],
    sequence [keyword .note, symbol .openBrace, text, symbol .closeBrace],
    sequence [keyword .indexes, block], ahead (¬ BeginsSpecial ·) field]) :
    Free a ∨ a = ahead (¬ BeginsSpecial ·) field := by
  simp only [List.mem_cons, List.not_mem_nil, or_false] at ha
  rcases ha with rfl | rfl | rfl | rfl
  · exact .inl ((free_token _).seq ((free_token _).seq ((free_token _).seq free_empty)))
  · exact .inl ((free_token _).seq ((free_token _).seq ((free_token _).seq
      ((free_token _).seq free_empty))))
  · exact .inl ((free_token _).seq (free_block.seq free_empty))
  · exact .inr rfl

/-- A part that begins with a name and does not depend on what follows takes the name. -/
theorem exists_cons_append {a : Phrase} (hfree : Free a)
    (hname : ∀ ts rest, a ts rest → ∃ t after, ts = t :: after ∧ IsName t.token)
    {ts rest : List Located} (h : a ts rest) :
    ∃ t taken, ts = t :: taken ++ rest ∧ IsName t.token ∧
      ∀ rest', a (t :: taken ++ rest') rest' := by
  obtain ⟨taken, rfl, htaken⟩ := hfree h
  obtain ⟨t, after, heq, ht⟩ := hname _ _ (htaken [])
  cases taken with
  | nil => contradiction
  | cons u taken => cases heq; exact ⟨_, _, rfl, ht, htaken⟩

/-- An item stays an item in front of other tokens that can take the place of what followed. -/
theorem exists_item_append {ts rest : List Located} (h : item ts rest) :
    ∃ t taken, ts = t :: taken ++ rest ∧ IsName t.token ∧
      ∀ rest', Replaces rest rest' → item (t :: taken ++ rest') rest' := by
  obtain ⟨a, ha, h⟩ := h
  rcases free_or_field ha with hfree | rfl
  · obtain ⟨t, taken, rfl, ht, htaken⟩ :=
      exists_cons_append hfree (fun _ _ h => exists_name_of_item ⟨a, ha, h⟩) h
    exact ⟨t, taken, rfl, ht, fun rest' _ => ⟨a, ha, htaken rest'⟩⟩
  · obtain ⟨t, taken, rfl, htaken⟩ := exists_field_append h.2
    obtain ⟨_, _, ⟨⟩, ht⟩ := exists_name_of_item ⟨_, ha, h⟩
    refine ⟨t, taken, rfl, ht, fun rest' hr => ⟨_, ha, ?_, htaken rest' hr⟩⟩
    exact not_beginsSpecial_of_field (htaken rest' hr) hr.1

/-- A closing brace, and an item if one followed before, can take the place of what followed. -/
theorem replaces_of_close {t : Located} {ts rest : List Located}
    (ht : t.token = .symbol .closeBrace) : Replaces ts (t :: rest) :=
  ⟨fresh_cons.2 (.inr ht), fun _ h => absurd h (not_beginsType_of_symbol ht)⟩

/-- Tokens that begin with one and the same name can take each other's place. -/
theorem replaces_of_name {t : Located} {ts rest : List Located} (ht : IsName t.token) :
    Replaces (t :: ts) (t :: rest) := by
  refine ⟨fresh_cons.2 (.inl ht), ?_⟩
  rintro line ⟨_, _, ⟨⟩, hname, hline⟩
  exact ⟨t, ts, rfl, hname, hline⟩

/-- The items of a table stay items in front of a closing brace. -/
theorem exists_items_append {ts rest : List Located} (h : star item ts rest) :
    ∃ taken, ts = taken ++ rest ∧ ∀ u rest', u.token = .symbol .closeBrace →
      Replaces ts (taken ++ u :: rest') ∧ star item (taken ++ u :: rest') (u :: rest') := by
  induction h with
  | nil => exact ⟨[], rfl, fun u rest' hu => ⟨replaces_of_close hu, .nil⟩⟩
  | cons h _ ih =>
    obtain ⟨ys, rfl, hys⟩ := ih
    obtain ⟨t, xs, rfl, ht, hxs⟩ := exists_item_append h
    refine ⟨t :: xs ++ ys, by simp, fun u rest' hu => ?_⟩
    obtain ⟨hreplaces, hstar⟩ := hys u rest' hu
    rw [List.append_assoc]
    exact ⟨replaces_of_name ht, .cons (hxs _ hreplaces) hstar⟩

/-- Items up to the closing brace are free, as the brace can follow each of them. -/
theorem free_items : Free (sequence [star item, symbol .closeBrace]) := by
  rintro ts _ ⟨_, hstar, rest, ⟨u, rfl, hu⟩, rfl⟩
  obtain ⟨taken, rfl, htaken⟩ := exists_items_append hstar
  refine ⟨taken ++ [u], by simp, fun rest' => ?_⟩
  rw [List.append_assoc]
  exact ⟨_, (htaken u rest' hu).2, rest', ⟨u, rfl, hu⟩, rfl⟩

/-- A table is free: what its last field depends on is the brace. -/
theorem free_table : Free table := by
  refine free_qualified.seq (Free.seq ?_ (free_settings.optional.seq ((free_token _).seq free_items)))
  exact ((free_token _).seq ((free_token _).seq free_empty)).optional

/-- A declaration is free, whatever it declares. -/
theorem free_declaration : Free declaration := by
  refine free_choice fun a ha => ?_
  simp only [List.mem_cons, List.not_mem_nil, or_false] at ha
  rcases ha with rfl | rfl | rfl | rfl
  · exact (free_token _).seq (free_table.seq free_empty)
  · exact (free_token _).seq (free_references.seq free_empty)
  · exact (free_token _).seq (free_enumeration.seq free_empty)
  · refine (free_choice fun a ha => ?_).seq (free_skipped.seq free_empty)
    simp only [List.mem_cons, List.not_mem_nil, or_false] at ha
    rcases ha with rfl | rfl | rfl <;> exact free_token _

end SchemaDiagram.Rule
