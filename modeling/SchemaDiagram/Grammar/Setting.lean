import SchemaDiagram.Grammar.Path

/-!
# SchemaDiagram.Grammar.Setting

The settings in brackets behind a table, a field, a value or a reference.

```
settings = "[" { setting "," } [ setting ] "]"
setting  = word { word } [ ":" value ]
value    = relation path | literal | "-" number | word { word }
```

The words of a setting's key are compared in lower case.  The key `ref` has a relation and a path
as its value, every other key has a text.
-/

namespace SchemaDiagram.Grammar

open SchemaDiagram.Parser
open SchemaDiagram.Document (Path Relation Reference Field)

/-! ## Settings and their meaning -/

/-- The value of a setting. -/
inductive Setting.Value where
  | text (value : String)
  /-- A reference from the field that has the setting. -/
  | link (relation : Relation) (target : Path)
  deriving DecidableEq, Repr

/-- A setting; its key is in lower case, with a space between words. -/
structure Setting where
  key : String
  value : Option Setting.Value
  deriving DecidableEq, Repr

namespace Setting

/-- The text that is the value of a setting. -/
def text? (s : Setting) : Option String :=
  match s.value with
  | some (.text text) => some text
  | _ => none

/-- The reference that a setting makes from the place that has it. -/
def reference? (source : Path) (s : Setting) : Option Reference :=
  match s.value with
  | some (.link relation target) => some (.of none source relation target)
  | _ => none

/-- A field that has a setting.  Of settings that exclude each other the last one holds. -/
def applyTo (s : Setting) (f : Field) : Field :=
  match s.key, s.value with
  | "pk", _ | "primary key", _ => { f with isPrimaryKey := true }
  | "unique", _ => { f with isUnique := true }
  | "not null", _ => { f with isNotNull := true }
  | "null", _ => { f with isNotNull := false }
  | "increment", _ => { f with isIncrement := true }
  | "default", some (.text text) => { f with defaultValue := some text }
  | "note", some (.text text) => { f with note := some text }
  | _, _ => f

/-- The text of the last of the settings with the given key. -/
def lastText (key : String) (settings : List Setting) : Option String :=
  ((settings.filter (·.key = key)).filterMap text?).getLast?

end Setting

/-! ## Values -/

/-- Words with a space between each two. -/
def joinWords (words : List String) : String := " ".intercalate words

/-- A number below zero, behind its dash. -/
def negative : Parser String := do
  let number ← take Token.number? .numberAfterDash
  return "-" ++ number

/-- One or more words. -/
def wordsValue : Parser String := do
  let first ← take Token.word? .settingValue
  let more ← takeAll Token.word?
  return joinWords (first :: more)

/-- The text of a setting: a quoted text, a number, a colour, or words. -/
def settingText : Parser String := do
  match ← take? Token.literal? with
  | some text => return text
  | none => if ← accept (is .dash) then negative else wordsValue

/-- The value of a setting with the given key. -/
def settingValue (key : String) : Parser Setting.Value := do
  if key = "ref" then
    let r ← relation
    let target ← path
    return .link r target
  else
    let text ← settingText
    return .text text

/-- The value behind a colon; none without a colon. -/
def optionalValue (key : String) : Parser (Option Setting.Value) := do
  if ← accept (is .colon) then
    let value ← settingValue key
    return some value
  else
    return none

/-! ## One setting -/

/-- The words of a key. -/
def settingKey : Parser String := do
  let first ← take Token.word? .settingName
  let more ← takeAll Token.word?
  return joinWords ((first :: more).map fun w => String.ofList (Text.lower w.toList))

/-- What comes behind a setting: a comma, which is taken, or the closing bracket, which is not. -/
def settingEnd : Parser Unit := fun ts =>
  if begins .closeBracket ts then .ok ((), ts) else symbol .comma .closeSettings ts

/-- One setting of a list. -/
def setting : Parser Setting := do
  let key ← settingKey
  let value ← optionalValue key
  settingEnd
  return ⟨key, value⟩

/-- Words take a token at least. -/
theorem advances_wordsValue : Advances wordsValue :=
  (advances_take _ _).bind fun _ => (shrinks_takeAll _).bind fun _ => shrinks_pure _

/-- The text of a setting leaves no more tokens than there were. -/
theorem shrinks_settingText : Shrinks settingText := by
  refine (shrinks_take? _).bind fun text => ?_
  split
  · exact shrinks_pure _
  · refine (shrinks_accept _).bind fun b => ?_
    split
    · exact (advances_take _ _).shrinks.bind fun _ => shrinks_pure _
    · exact advances_wordsValue.shrinks

/-- A value leaves no more tokens than there were, whether it is a reference or a text. -/
theorem shrinks_settingValue (key : String) : Shrinks (settingValue key) := by
  unfold settingValue
  split
  · exact advances_relation.shrinks.bind fun _ => advances_path.shrinks.bind fun _ =>
      shrinks_pure _
  · exact shrinks_settingText.bind fun _ => shrinks_pure _

/-- A value that may be left out leaves no more tokens than there were. -/
theorem shrinks_optionalValue (key : String) : Shrinks (optionalValue key) := by
  refine (shrinks_accept _).bind fun b => ?_
  split
  · exact (shrinks_settingValue key).bind fun _ => shrinks_pure _
  · exact shrinks_pure _

/-- A key takes a token at least. -/
theorem advances_settingKey : Advances settingKey :=
  (advances_take _ _).bind fun _ => (shrinks_takeAll _).bind fun _ => shrinks_pure _

/-- The end of a setting takes a comma at most. -/
theorem shrinks_settingEnd : Shrinks settingEnd := by
  intro ts a rest h
  unfold settingEnd at h
  split at h
  · cases h; simp
  · exact (advances_symbol _ _).shrinks h

/-- A setting takes a token at least, so that a list of settings comes to an end. -/
theorem advances_setting : Advances setting :=
  advances_settingKey.bind fun key => (shrinks_optionalValue key).bind fun _ =>
    shrinks_settingEnd.bind fun _ => shrinks_pure _

/-! ## Lists of settings -/

/-- The settings up to the closing bracket, the opening one taken. -/
def settingsBody : Parser (List Setting) := manyUntil .closeBracket setting advances_setting

/-- Settings in brackets; none without brackets. -/
def settings : Parser (List Setting) := do
  if ← accept (is .openBracket) then settingsBody else return []

/-- A list of settings leaves no more tokens than there were. -/
theorem shrinks_settingsBody : Shrinks settingsBody := shrinks_manyUntil ..

/-- Settings that may be left out leave no more tokens than there were. -/
theorem shrinks_settings : Shrinks settings := by
  refine (shrinks_accept _).bind fun b => ?_
  split
  · exact shrinks_settingsBody
  · exact shrinks_pure _

end SchemaDiagram.Grammar
