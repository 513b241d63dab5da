import SchemaDiagram.Document
import SchemaDiagram.Grammar.FieldType
import SchemaDiagram.Grammar.Setting
import SchemaDiagram.Proofs.Token.Writing

/-!
# SchemaDiagram.Proofs.Document.Outline

Documents before they are written.

1. An outline is a list of tables, references and enumerations in any order.  Names and texts are
   any strings; only the words, numbers and colours that are written without quotes have to be some.
2. `lines` is how an outline is written: names between double quotes, texts between single quotes,
   a field or a value on each line, and settings in brackets if there are any.
3. `declared` is what an outline declares.
-/

namespace SchemaDiagram.Outline

open Document (Relation Path Reference Enumeration Declarations)

/-! ## Types -/

/-- A word that stands without quotes. -/
structure Word where
  text : String
  isIdentifier : IsIdentifier text.toList

/-- A number. -/
structure Numeral where
  text : String
  isNumber : IsNumber text.toList

/-- A part of the arguments of a type. -/
inductive Argument where
  | word (w : Word)
  | number (n : Numeral)
  | comma
  | string (text : String)

namespace Argument

/-- The token that an argument is written as. -/
def token : Argument → Token
  | word w => .identifier w.text
  | number n => .number n.text
  | comma => .symbol .comma
  | string text => .string text

/-- The argument as it is read. -/
def meaning : Argument → Grammar.Argument
  | word w => .word w.text
  | number n => .word n.text
  | comma => .comma
  | string text => .string text

end Argument

/-- A type such as `core."money"(10, 2)[]`. -/
structure TypeExpression where
  first : Word
  qualifier : Option String := none
  args : Option (List Argument) := none
  isArray : Bool := false

namespace TypeExpression

variable (e : TypeExpression)

/-- The second part of the name behind a point, if there is one. -/
def qualifierTokens : List Token :=
  match e.qualifier with
  | some name => [.symbol .dot, .quoted name]
  | none => []

/-- The arguments in parentheses, if there are any. -/
def argumentTokens : List Token :=
  match e.args with
  | some args => .symbol .openParen :: (args.map Argument.token ++ [.symbol .closeParen])
  | none => []

/-- The brackets of an array. -/
def arrayTokens : List Token :=
  if e.isArray then [.symbol .openBracket, .symbol .closeBracket] else []

/-- The tokens of a type. -/
def tokens : List Token :=
  .identifier e.first.text :: (e.qualifierTokens ++ (e.argumentTokens ++ e.arrayTokens))

/-- The arguments as text. -/
def argumentText : Option String := e.args.map fun args => Grammar.Argument.text (args.map (·.meaning))

/-- The type as it is read: its parts without the quotes, and the arguments once more. -/
def meaning : Document.FieldType :=
  .expression
    (e.first.text ++ ((e.qualifier.map ("." ++ ·)).getD "") ++
      ((e.argumentText.map fun text => "(" ++ text ++ ")").getD "") ++
      (if e.isArray then "[]" else ""))
    e.argumentText

end TypeExpression

/-- The type of a field. -/
inductive FieldType where
  | absent
  | quoted (name : String)
  | expression (e : TypeExpression)

namespace FieldType

/-- The tokens of a type; none if it is absent. -/
def tokens : FieldType → List Token
  | absent => []
  | quoted name => [.quoted name]
  | expression e => e.tokens

/-- The type as it is read. -/
def meaning : FieldType → Document.FieldType
  | absent => .absent
  | quoted name => .quoted name
  | expression e => e.meaning

end FieldType

/-! ## Settings -/

/-- The colour of a header: digits behind a number sign, or any text between quotes. -/
inductive Color where
  | hex (text : String) (isColor : IsColor text.toList)
  | named (text : String)

namespace Color

/-- The text that a colour is read as. -/
def text : Color → String
  | hex text _ | named text => text

def token : Color → Token
  | hex text _ => .color text
  | named text => .string text

end Color

/-- A setting of a table or a field. -/
inductive Setting where
  | primaryKey
  | unique
  | notNull
  | increment
  | default (text : String)
  | note (text : String)
  | headerColor (color : Color)

namespace Setting

/-- The words of the key. -/
def key : Setting → List String
  | primaryKey => ["pk"]
  | unique => ["unique"]
  | notNull => ["not", "null"]
  | increment => ["increment"]
  | default _ => ["default"]
  | note _ => ["note"]
  | headerColor _ => ["headercolor"]

/-- The value behind the key, if the setting has one. -/
def value? : Setting → Option Token
  | default text | note text => some (.string text)
  | headerColor color => some color.token
  | _ => none

/-- The value with its colon. -/
def valueTokens (s : Setting) : List Token :=
  match s.value? with
  | some t => [.symbol .colon, t]
  | none => []

/-- The tokens of one setting. -/
def tokens (s : Setting) : List Token := s.key.map .identifier ++ s.valueTokens

/-- What is read where the setting stands. -/
def meaning : Setting → Grammar.Setting
  | primaryKey => ⟨"pk", none⟩
  | unique => ⟨"unique", none⟩
  | notNull => ⟨"not null", none⟩
  | increment => ⟨"increment", none⟩
  | default text => ⟨"default", some (.text text)⟩
  | note text => ⟨"note", some (.text text)⟩
  | headerColor color => ⟨"headercolor", some (.text color.text)⟩

/-- The tokens of settings behind the first one. -/
def moreTokens (settings : List Setting) : List Token :=
  settings.flatMap fun s => .symbol .comma :: s.tokens

/-- Settings in brackets; nothing if there are none. -/
def listTokens : List Setting → List Token
  | [] => []
  | s :: more => .symbol .openBracket :: (s.tokens ++ (moreTokens more ++ [.symbol .closeBracket]))

end Setting

/-! ## Tables -/

/-- A field of a table. -/
structure Field where
  name : String
  type : FieldType := .absent
  isPrimaryKey : Bool := false
  isUnique : Bool := false
  isNotNull : Bool := false
  isIncrement : Bool := false
  defaultValue : Option String := none
  note : Option String := none

namespace Field

variable (f : Field)

/-- The settings that say what a field has beside its name and its type. -/
def settings : List Setting :=
  (if f.isPrimaryKey then [.primaryKey] else []) ++ (if f.isUnique then [.unique] else []) ++
    (if f.isNotNull then [.notNull] else []) ++ (if f.isIncrement then [.increment] else []) ++
    (f.defaultValue.map Setting.default).toList ++ (f.note.map Setting.note).toList

/-- The line that a field is written in. -/
def line : List Token := .quoted f.name :: (f.type.tokens ++ Setting.listTokens f.settings)

/-- The field as it is declared. -/
def meaning : Document.Field where
  name := f.name
  type := f.type.meaning
  isPrimaryKey := f.isPrimaryKey
  isUnique := f.isUnique
  isNotNull := f.isNotNull
  isIncrement := f.isIncrement
  defaultValue := f.defaultValue
  note := f.note

end Field

/-- A name with the name of its schema, if that is named. -/
def qualifiedTokens (schemaName : Option String) (name : String) : List Token :=
  match schemaName with
  | some schema => [.quoted schema, .symbol .dot, .quoted name]
  | none => [.quoted name]

/-- Names that each follow a separator. -/
def behind (separator : Symbol) (names : List String) : List Token :=
  names.flatMap fun name => [.symbol separator, .quoted name]

/-- A table. -/
structure Table where
  name : String
  schemaName : Option String := none
  aliasName : Option String := none
  headerColor : Option Color := none
  note : Option String := none
  fields : List Field := []

namespace Table

variable (t : Table)

/-- The alias behind its keyword, if there is one. -/
def aliasTokens : List Token :=
  match t.aliasName with
  | some name => [.identifier Keyword.as.spelling, .quoted name]
  | none => []

/-- The settings of a table. -/
def settings : List Setting :=
  (t.headerColor.map Setting.headerColor).toList ++ (t.note.map Setting.note).toList

/-- The line that a table begins with. -/
def header : List Token :=
  .identifier Keyword.table.spelling :: (qualifiedTokens t.schemaName t.name ++
    (t.aliasTokens ++ (Setting.listTokens t.settings ++ [.symbol .openBrace])))

/-- The lines of a table: one for each field between the first and the last. -/
def lines : List (List Token) := t.header :: (t.fields.map Field.line ++ [[.symbol .closeBrace]])

/-- The table as it is declared. -/
def meaning : Document.Table where
  name := t.name
  schemaName := t.schemaName
  aliasName := t.aliasName
  headerColor := t.headerColor.map (·.text)
  note := t.note
  fields := t.fields.map (·.meaning)

end Table

/-! ## References -/

/-- An end of a reference: a table, or fields of a table, whose schema may then be named. -/
inductive Endpoint where
  | table (name : String)
  | fields (schemaName : Option String) (tableName first : String) (more : List String)

namespace Endpoint

/-- One field stands behind a point, several stand in parentheses. -/
def tokens : Endpoint → List Token
  | table name => [.quoted name]
  | fields schemaName tableName first [] =>
    qualifiedTokens schemaName tableName ++ [.symbol .dot, .quoted first]
  | fields schemaName tableName first (second :: more) =>
    qualifiedTokens schemaName tableName ++ (.symbol .dot :: .symbol .openParen :: .quoted first ::
      (behind .comma (second :: more) ++ [.symbol .closeParen]))

/-- The place that an endpoint is. -/
def meaning : Endpoint → Path
  | table name => ⟨none, name, []⟩
  | fields schemaName tableName first more => ⟨schemaName, tableName, first :: more⟩

end Endpoint

/-- The sign of a relation. -/
def sign : Relation → Symbol
  | .manyToOne => .greater
  | .oneToMany => .less
  | .oneToOne => .dash
  | .manyToMany => .lessGreater

/-- A reference in one line. -/
structure Link where
  name : Option String := none
  source : Endpoint
  relation : Relation
  target : Endpoint

namespace Link

variable (l : Link)

/-- The name of the reference, if it has one. -/
def nameTokens : List Token :=
  match l.name with
  | some name => [.quoted name]
  | none => []

/-- The line of a reference. -/
def line : List Token :=
  .identifier Keyword.ref.spelling :: (l.nameTokens ++ (.symbol .colon ::
    (l.source.tokens ++ (.symbol (sign l.relation) :: l.target.tokens))))

/-- The reference as it is declared, with the two symbols of its relation. -/
def meaning : Reference := .of l.name l.source.meaning l.relation l.target.meaning

end Link

/-! ## Outlines -/

/-- The line that an enumeration begins with. -/
def enumerationHeader (e : Enumeration) : List Token :=
  .identifier Keyword.enum.spelling ::
    (qualifiedTokens e.schemaName e.name ++ [.symbol .openBrace])

/-- The lines of an enumeration. -/
def enumerationLines (e : Enumeration) : List (List Token) :=
  enumerationHeader e :: (e.values.map (fun value => [.quoted value]) ++ [[.symbol .closeBrace]])

/-- One thing that an outline lists. -/
inductive Declaration where
  | table (t : Table)
  | reference (l : Link)
  | enumeration (e : Enumeration)

namespace Declaration

/-- The lines of a declaration. -/
def lines : Declaration → List (List Token)
  | table t => t.lines
  | reference l => [l.line]
  | enumeration e => enumerationLines e

/-- What is declared. -/
def meaning : Declaration → Declarations
  | table t => { tables := [t.meaning] }
  | reference l => { references := [l.meaning] }
  | enumeration e => { enumerations := [e] }

/-- The table that is declared. -/
def table? : Declaration → Option Document.Table
  | table t => some t.meaning
  | _ => none

/-- The reference that is declared. -/
def reference? : Declaration → Option Reference
  | reference l => some l.meaning
  | _ => none

/-- The enumeration that is declared. -/
def enumeration? : Declaration → Option Enumeration
  | enumeration e => some e
  | _ => none

end Declaration

/-- The lines of an outline. -/
def lines (ds : List Declaration) : List (List Token) := ds.flatMap (·.lines)

/-- An outline as a source text. -/
def write (spacing : Spacing) (ds : List Declaration) : String :=
  String.ofList (spacing.writeLines (lines ds))

/-- What an outline declares, in the order in which it lists it. -/
def declared (ds : List Declaration) : Declarations where
  tables := ds.filterMap (·.table?)
  references := ds.filterMap (·.reference?)
  enumerations := ds.filterMap (·.enumeration?)

/-- What an outline declares is what its parts do, taken together. -/
theorem concat_meaning (ds : List Declaration) : .concat (ds.map (·.meaning)) = declared ds := by
  induction ds with
  | nil => rfl
  | cons d ds ih =>
    rw [List.map_cons, Declarations.concat, ih]
    cases d <;> rfl

/-! ## Outlines can be written -/

/-- Whether a text is a word that begins with a letter or a low line. -/
def isPlainWord (text : String) : Bool :=
  match text.toList with
  | [] => false
  | c :: cs => Lexeme.isNameStart c && cs.all Lexeme.isNameChar

/-- A text that is a word by the test can stand without quotes. -/
theorem isIdentifier_of_isPlainWord {text : String} (h : isPlainWord text = true) :
    IsIdentifier text.toList := by
  unfold isPlainWord at h
  split at h
  · contradiction
  · rename_i c cs heq
    rw [Bool.and_eq_true, List.all_eq_true] at h
    exact ⟨[], c, cs, heq, by simp, h.1, h.2⟩

/-- A keyword can stand without quotes. -/
theorem isPlainWord_spelling (k : Keyword) : isPlainWord k.spelling = true := by
  cases k <;> decide

/-- The words of a key can stand without quotes. -/
theorem isPlainWord_of_mem_key (s : Setting) : ∀ word ∈ s.key, isPlainWord word = true := by
  cases s <;> simp only [Setting.key] <;> decide

/-- Every token can be written. -/
def Writable (ts : List Token) : Prop := ∀ t ∈ ts, t.IsWritable

@[simp] theorem writable_nil : Writable [] := by simp [Writable]

@[simp] theorem writable_cons {t : Token} {ts : List Token} :
    Writable (t :: ts) ↔ t.IsWritable ∧ Writable ts := List.forall_mem_cons

@[simp] theorem writable_append {ts us : List Token} :
    Writable (ts ++ us) ↔ Writable ts ∧ Writable us := List.forall_mem_append

@[simp] theorem isWritable_symbol (s : Symbol) : (Token.symbol s).IsWritable := trivial

@[simp] theorem isWritable_string (text : String) : (Token.string text).IsWritable := trivial

@[simp] theorem isWritable_quoted (text : String) : (Token.quoted text).IsWritable := trivial

@[simp] theorem isWritable_spelling (k : Keyword) : (Token.identifier k.spelling).IsWritable :=
  isIdentifier_of_isPlainWord (isPlainWord_spelling k)

/-- Tokens are writable part by part. -/
theorem writable_flatMap {xs : List α} {f : α → List Token} (h : ∀ x, Writable (f x)) :
    Writable (xs.flatMap f) := by
  intro t ht
  obtain ⟨x, _, hx⟩ := List.mem_flatMap.1 ht
  exact h x t hx

/-- Names between quotes are writable, whatever they are. -/
@[simp] theorem writable_qualifiedTokens (schemaName : Option String) (name : String) :
    Writable (qualifiedTokens schemaName name) := by
  cases schemaName <;> simp [qualifiedTokens]

/-- An argument of a type is writable, as its words and numbers are some. -/
theorem Argument.isWritable_token (a : Argument) : a.token.IsWritable := by
  cases a with
  | word w => exact w.isIdentifier
  | number n => exact n.isNumber
  | comma | string => trivial

/-- A type is writable, with all its parts or without. -/
@[simp] theorem TypeExpression.writable_tokens (e : TypeExpression) : Writable e.tokens := by
  have hfirst : (Token.identifier e.first.text).IsWritable := e.first.isIdentifier
  have hqualifier : Writable e.qualifierTokens := by
    unfold qualifierTokens
    split <;> simp
  have harguments : Writable e.argumentTokens := by
    unfold argumentTokens
    split
    · have hargs (args : List Argument) : Writable (args.map Argument.token) := by
        intro t ht
        obtain ⟨a, _, rfl⟩ := List.mem_map.1 ht
        exact a.isWritable_token
      simp [hargs]
    · simp
  have harray : Writable e.arrayTokens := by
    unfold arrayTokens
    split <;> simp
  simp [tokens, hfirst, hqualifier, harguments, harray]

@[simp] theorem FieldType.writable_tokens (t : FieldType) : Writable t.tokens := by
  cases t <;> simp [tokens]

/-- The value of a setting is writable, a text or a colour. -/
theorem Setting.isWritable_value {s : Setting} {t : Token} (h : s.value? = some t) :
    t.IsWritable := by
  cases s with
  | headerColor color =>
    cases h
    cases color with
    | hex text isColor => exact isColor
    | named text => trivial
  | default | note => cases h; trivial
  | primaryKey | unique | notNull | increment => contradiction

/-- A setting is writable, with its value or without. -/
@[simp] theorem Setting.writable_tokens (s : Setting) : Writable s.tokens := by
  have hkey : Writable (s.key.map .identifier) := by
    intro t ht
    obtain ⟨word, hword, rfl⟩ := List.mem_map.1 ht
    exact isIdentifier_of_isPlainWord (isPlainWord_of_mem_key s word hword)
  have hvalue : Writable s.valueTokens := by
    unfold valueTokens
    split
    · rename_i t ht
      simp [isWritable_value ht]
    · simp
  simp [tokens, hkey, hvalue]

/-- A list of settings is writable. -/
@[simp] theorem Setting.writable_listTokens (settings : List Setting) :
    Writable (listTokens settings) := by
  cases settings with
  | nil => simp [listTokens]
  | cons s more =>
    have hmore : Writable (moreTokens more) := writable_flatMap fun s => by simp
    simp [listTokens, hmore]

theorem Field.writable_line (f : Field) : Writable f.line := by simp [line]

/-- The line that opens a table is writable. -/
theorem Table.writable_header (t : Table) : Writable t.header := by
  have halias : Writable t.aliasTokens := by
    unfold aliasTokens
    split <;> simp
  simp [header, halias]

/-- An end of a reference is writable, in each of its forms. -/
@[simp] theorem Endpoint.writable_tokens (e : Endpoint) : Writable e.tokens := by
  unfold tokens
  split
  · simp
  · simp
  · rename_i second more
    have hmore : Writable (behind .comma (second :: more)) := writable_flatMap fun name => by simp
    simp [hmore]

/-- A reference in one line is writable. -/
theorem Link.writable_line (l : Link) : Writable l.line := by
  have hname : Writable l.nameTokens := by
    unfold nameTokens
    split <;> simp
  simp [line, hname]

/-- Every line of an outline's declaration is writable. -/
theorem Declaration.writable_of_mem_lines {d : Declaration} : ∀ line ∈ d.lines, Writable line := by
  intro line hline
  cases d with
  | table t =>
    simp only [lines, Table.lines, List.mem_cons, List.mem_append, List.mem_map] at hline
    rcases hline with rfl | ⟨f, _, rfl⟩ | hclose
    · exact t.writable_header
    · exact f.writable_line
    · simp_all
  | reference l =>
    rw [List.mem_singleton.1 hline]
    exact l.writable_line
  | enumeration e =>
    simp only [lines, enumerationLines, List.mem_cons, List.mem_append, List.mem_map] at hline
    rcases hline with rfl | ⟨value, _, rfl⟩ | hclose
    · simp [enumerationHeader]
    · simp
    · simp_all

/-- All lines of an outline can be written. -/
theorem writable_of_mem_lines {ds : List Declaration} : ∀ line ∈ lines ds, Writable line := by
  intro line hline
  obtain ⟨d, _, hd⟩ := List.mem_flatMap.1 hline
  exact d.writable_of_mem_lines line hd

end SchemaDiagram.Outline
