import SchemaDiagram.Grammar
import SchemaDiagram.Proofs.Parser.Local

/-!
# SchemaDiagram.Proofs.Grammar.Locality

All parsers of the grammar are local: what they do depends on the tokens they take and on the next
one.

1. A path looks at the token behind a point, but then takes both or fails behind the point.
2. A type looks at the token behind a bracket, but where it leaves the bracket to the settings they
   take it.
3. An item looks at the token behind `note` and `indexes`, which are names of fields otherwise.
-/

namespace SchemaDiagram.Grammar

open SchemaDiagram.Parser

/-! ## Names and paths -/

/-- Whether a schema stands in front of a table's name is seen from the token behind the first
name. -/
theorem local_qualifiedName (e : Expected) : Local (qualifiedName e) := by
  refine (local_name e).bind fun _ => (local_accept _).bind fun b => ?_
  split
  · exact (local_name e).map
  · exact local_pure _

/-- The fields between parentheses, the opening one taken. -/
theorem local_fieldNames : Local (do
    let first ← name .fieldName
    let more ← namesAfter .comma (fun _ => false) .fieldName
    symbol .closeParen .closeFields
    return some (first :: more)) := by
  refine (local_name _).bind fun _ ts => ?_
  refine (localAt_namesAfter _ _ _ _).bind
    (fun _ mid _ => ((local_symbol _ _).bind fun _ => local_pure _) mid) fun _ mid h => ?_
  rcases stops_of_namesAfter h with hs | ⟨_, _, _, _, _, hu⟩
  · exact .inl hs
  · contradiction

/-- A field list is local where no point follows without its parenthesis. -/
theorem localAt_fieldList {ts : List Located}
    (h : Stops (is .dot) ts ∨ BeginsBoth (is .dot) (is .openParen) ts) :
    LocalAt never fieldList ts := by
  rcases h with hs | ⟨t, u, rest, rfl, ht, hu⟩
  · refine .of_head (q := pure none) (fun ts' h => acceptBoth_then_of_not ?_) (local_pure _ _)
    exact not_beginsBoth_of_stops ((alike_never h).begins_iff.2 hs)
  · exact .cons (fun _ => rfl) (.cons (fun _ => acceptBoth_then_of_true ht hu)
      (local_fieldNames rest))

/-- A path looks two tokens ahead behind its last name, but takes the list of fields that it sees
there. -/
theorem local_path : Local path := by
  refine (local_name _).bind fun first ts => ?_
  refine (localAt_namesAfter _ _ _ _).bind (fun more mid h => ?_) fun more mid h => ?_
  · exact (localAt_fieldList (stops_of_namesAfter h)).map
  · rcases stops_of_namesAfter h with hs | ⟨t, u, rest, rfl, ht, hu⟩
    · exact .inl hs
    · refine .inr ((local_fieldNames.map rest).moves (bind_congr_left ?_)
        (by simp only [List.length_cons]; omega))
      exact acceptBoth_then_of_true ht hu

theorem local_relation : Local relation := local_take _ _

/-! ## Settings -/

theorem local_wordsValue : Local wordsValue :=
  (local_take _ _).bind fun _ => (local_takeAll _).map

/-- The text of a setting is told by its first token. -/
theorem local_settingText : Local settingText := by
  refine (local_take? _).bind fun text => ?_
  split
  · exact local_pure _
  · refine (local_accept _).bind fun b => ?_
    split
    · exact (local_take _ _).map
    · exact local_wordsValue

/-- The value of a setting is local, a reference or a text. -/
theorem local_settingValue (key : String) : Local (settingValue key) := by
  unfold settingValue
  split
  · exact local_relation.bind fun _ => local_path.map
  · exact local_settingText.map

/-- Whether a setting has a value is seen from the next token. -/
theorem local_optionalValue (key : String) : Local (optionalValue key) := by
  refine (local_accept _).bind fun b => ?_
  split
  · exact (local_settingValue key).map
  · exact local_pure _

theorem local_settingKey : Local settingKey :=
  (local_take _ _).bind fun _ => (local_takeAll _).map

/-- Whether a setting is the last is seen from the next token, which is left if it is. -/
theorem local_settingEnd : Local settingEnd := by
  intro ts
  cases hb : begins .closeBracket ts with
  | true =>
    refine .of_head (q := pure ()) (fun ts' h => ?_) (local_pure _ _)
    rw [settingEnd, if_pos ((begins_congr _ _ _ h).trans hb)]
    rfl
  | false =>
    refine .of_head (fun ts' h => ?_) (local_symbol .comma .closeSettings _)
    rw [settingEnd, if_neg (by simp [begins_congr _ _ _ h, hb])]

theorem local_setting : Local setting :=
  local_settingKey.bind fun key => (local_optionalValue key).bind fun _ => local_settingEnd.map

theorem local_settingsBody : Local settingsBody := local_setting.manyUntil

/-- Whether a list of settings is there is seen from its bracket. -/
theorem local_settings : Local settings := by
  refine (local_accept _).bind fun b => ?_
  split
  · exact local_settingsBody
  · exact local_pure _

/-! ## Blocks -/

/-- A block is passed over token by token, without a look ahead. -/
theorem local_blockBody (depth : Nat) : Local (blockBody depth) := by
  intro ts
  induction ts generalizing depth with
  | nil =>
    refine .of_head (q := fail .closeBlock) (fun ts' h => ?_) (local_fail _ _)
    rw [List.head?_eq_none_iff.1 h]
    rfl
  | cons t ts ih =>
    by_cases ho : t.token = .symbol .openBrace
    · exact .cons (fun _ => blockBody_of_open ho depth) (ih _)
    · by_cases hc : t.token = .symbol .closeBrace
      · cases depth with
        | zero => exact .cons (q := pure ()) (fun _ => blockBody_of_close hc) (local_pure _ _)
        | succ depth => exact .cons (fun _ => blockBody_of_close_inner hc depth) (ih _)
      · exact .cons (fun _ => blockBody_of_other ho hc depth) (ih _)

/-- What stands in front of a block is told by its first token. -/
theorem local_blockHead : Local blockHead := by
  refine (local_accept _).bind fun b => ?_
  split
  · exact local_settingsBody.map
  · exact local_take _ _

theorem local_skipped : Local skipped :=
  local_blockHead.manyUntil.bind fun _ => local_blockBody 0

/-! ## Types -/

/-- Whether a type's name goes on is seen from the next token. -/
theorem local_typeQualifier : Local typeQualifier := by
  refine (local_accept _).bind fun b => ?_
  split
  · exact (local_name _).map
  · exact local_pure _

/-- Whether a type has arguments is seen from the next token. -/
theorem local_typeArguments : Local typeArguments := by
  refine (local_accept _).bind fun b => ?_
  split
  · exact (local_takeAll _).bind fun _ => (local_symbol _ _).map
  · exact local_pure _

/-- Behind an opening bracket a type looks one token further, for the brackets of an array. -/
theorem localAt_typeExpression (first : String) (ts : List Located) :
    LocalAt (is .openBracket) (typeExpression first) ts :=
  local_typeQualifier.bindAt fun _ _ _ => local_typeArguments.bindAt fun _ mid _ =>
    (localAt_acceptBoth _ _ mid).map

/-- A type looks at the token behind a bracket. -/
theorem localAt_fieldType (line : Option Nat) (ts : List Located) :
    LocalAt (is .openBracket) (fieldType line) ts := by
  refine local_line?.bindAt fun here mid _ => ?_
  split
  · refine (local_take? _).bindAt fun text mid _ => ?_
    split
    · exact localAt_pure _ _ _
    · refine (local_take? _).bindAt fun first mid _ => ?_
      split
      · exact localAt_typeExpression _ _
      · exact localAt_pure _ _ _
  · exact localAt_pure _ _ _

/-! ## Tables -/

/-- What follows the name of a field: the settings take the bracket that the type looks at. -/
theorem local_typeAndSettings (line : Option Nat) (g : Document.FieldType → List Setting → α) :
    Local (do let type ← fieldType line; let settings ← settings; return g type settings) := by
  intro ts
  refine (localAt_fieldType line ts).bind (fun _ mid _ => local_settings.map mid) ?_
  intro type mid _
  rcases begins_or_stops (is .openBracket) mid with ⟨t, rest, rfl, ht⟩ | hs
  · refine .inr ((local_settingsBody.map rest).moves (bind_congr_left ?_) (by simp))
    exact accept_then_of_true ht
  · exact .inl hs

/-- A field is local all the same: a bracket that is not an array's begins its settings. -/
theorem local_field (schemaName : Option String) (tableName : String) :
    Local (field schemaName tableName) :=
  local_line?.bind fun line => (local_name _).bind fun _ => local_typeAndSettings line _

/-- A field takes its name. -/
theorem moves_field {schemaName : Option String} {tableName : String} {t : Located} {n : String}
    (ht : t.token.name? = some n) (ts : List Located) :
    Moves (field schemaName tableName) (t :: ts) := by
  refine moves_line?_bind (moves_name_bind ht ?_)
  exact local_typeAndSettings _ _

theorem local_noteText : Local noteText := local_take _ _

/-- A parser that takes any name takes a keyword. -/
theorem stops_or_moves {k : Keyword} {p : Parser α}
    (h : ∀ t ts n, t.token.name? = some n → Moves p (t :: ts)) (ts : List Located) :
    Stops (·.isKeyword k) ts ∨ Moves p ts := by
  rcases begins_or_stops (·.isKeyword k) ts with ⟨t, ts, rfl, ht⟩ | hs
  · obtain ⟨n, hn⟩ : ∃ n, t.token.name? = some n := by
      cases hw : t.token with
      | identifier text => exact ⟨text, rfl⟩
      | _ => rw [hw] at ht; contradiction
    exact .inr (h t ts n hn)
  · exact .inl hs

/-- What an item is may be seen from its second token, which the item takes in any case. -/
theorem local_tableItem (schemaName : Option String) (tableName : String) :
    Local (tableItem schemaName tableName) := by
  have hfield (t : Located) (ts : List Located) (n : String) (hn : t.token.name? = some n) :
      Moves (do
        let r ← field schemaName tableName
        return TableItem.field r.1 r.2) (t :: ts) :=
    (moves_field hn ts).map
  have hindexes : Local (do blockBody 0; return TableItem.indexes) := (local_blockBody 0).map
  have hbrace : Local (do
      let text ← noteText
      symbol .closeBrace .closeNote
      return TableItem.note text) :=
    local_noteText.bind fun _ => (local_symbol _ _).map
  refine local_noteText.map.acceptBoth_then (hbrace.acceptBoth_then
    (hindexes.acceptBoth_then (local_field _ _).map ?_) ?_) ?_
  · exact fun ts _ => stops_or_moves hfield ts
  · exact fun ts _ => stops_or_moves (fun t ts n hn =>
      moves_acceptBoth_then hindexes (hfield t ts n hn)) ts
  · exact fun ts _ => stops_or_moves (fun t ts n hn => moves_acceptBoth_then hbrace
      (moves_acceptBoth_then hindexes (hfield t ts n hn))) ts

/-- Whether a table has another name is seen from the next token. -/
theorem local_tableAlias : Local tableAlias := by
  refine (local_accept _).bind fun b => ?_
  split
  · exact (local_name _).map
  · exact local_pure _

/-- A table is local, as its parts are. -/
theorem local_table : Local table :=
  (local_qualifiedName _).bind fun _ => local_tableAlias.bind fun _ => local_settings.bind fun _ =>
    (local_symbol _ _).bind fun _ => ((local_tableItem _ _).beforeEnd _).manyUntil.map

/-! ## References and enumerations -/

theorem local_reference (n : Option String) : Local (reference n) :=
  local_path.bind fun _ => local_relation.bind fun _ => local_path.bind fun _ =>
    local_settings.map

/-- Whether references stand on the line or between braces is seen from the next token. -/
theorem local_references : Local references := by
  refine (local_take? _).bind fun n => (local_accept _).bind fun b => ?_
  split
  · exact (local_reference n).map
  · exact (local_symbol _ _).bind fun _ => ((local_reference n).beforeEnd _).manyUntil

theorem local_enumValue : Local enumValue := (local_name _).bind fun _ => local_settings.map

theorem local_enumeration : Local enumeration :=
  (local_qualifiedName _).bind fun _ => (local_symbol _ _).bind fun _ =>
    local_enumValue.manyUntil.map

/-! ## Documents -/

/-- What is declared is seen from the keyword. -/
theorem local_declaration : Local declaration := by
  refine (local_accept _).bind fun b => ?_
  split
  · exact local_table
  refine (local_accept _).bind fun b => ?_
  split
  · exact local_references.map
  refine (local_accept _).bind fun b => ?_
  split
  · exact local_enumeration.map
  refine (local_accept _).bind fun b => ?_
  split
  · exact local_skipped.map
  · exact local_fail _

/-- All declarations are local: the end of the input is where no token is next. -/
theorem local_declarations : Local declarations := by
  refine (local_declaration.repeatUntil fun ts ts' h => ?_).map
  cases ts <;> cases ts' <;> simp_all

end SchemaDiagram.Grammar
