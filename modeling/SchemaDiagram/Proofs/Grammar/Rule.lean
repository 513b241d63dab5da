import SchemaDiagram.Grammar.Setting
import SchemaDiagram.Proofs.Grammar.Phrase

/-!
# SchemaDiagram.Proofs.Grammar.Rule

The grammar of schema documents, as it is written down:

```
document    = { declaration }
declaration = "table" qualified [ "as" name ] [ settings ] "{" { item } "}"
            | "ref" [ name ] ( ":" reference | "{" { reference } "}" )
            | "enum" qualified "{" { name [ settings ] } "}"
            | ( "project" | "tablegroup" | "note" ) { settings | other } block
item        = "note" ( ":" text | "{" text "}" ) | "indexes" block | name [ type ] [ settings ]
type        = quoted | word [ "." name ] [ "(" { argument } ")" ] [ "[" "]" ]
settings    = "[" { setting "," } [ setting ] "]"
setting     = word { word } [ ":" value ]
value       = relation path | literal | "-" number | word { word }
reference   = path relation path [ settings ]
path        = name { "." name } [ "." "(" name { "," name } ")" ]
block       = "{" { block | other } "}"
```

Three parts look ahead.

1. A type is there exactly if the next token is a word or a quoted name on the line of the field's
   name.
2. The two brackets behind a type belong to it whenever they follow it.
3. An item is a field unless it is `note` before a colon or a brace, or `indexes` before a brace.
-/

namespace SchemaDiagram.Rule

open Phrase

/-! ## Kinds of token -/

/-- An identifier. -/
def IsWord (t : Token) : Prop := ∃ text, t = .identifier text

/-- A name between double quotes. -/
def IsQuoted (t : Token) : Prop := ∃ text, t = .quoted text

/-- An identifier or a name between double quotes. -/
def IsName (t : Token) : Prop := IsWord t ∨ IsQuoted t

/-- A text between single or double quotes. -/
def IsText (t : Token) : Prop := (∃ text, t = .string text) ∨ IsQuoted t

/-- A number. -/
def IsNumeral (t : Token) : Prop := ∃ text, t = .number text

/-- A token that is the value of a setting on its own. -/
def IsLiteral (t : Token) : Prop :=
  IsText t ∨ IsNumeral t ∨ (∃ text, t = .expression text) ∨ ∃ text, t = .color text

/-- A token that may stand among the arguments of a type. -/
def IsArgument (t : Token) : Prop :=
  IsWord t ∨ IsNumeral t ∨ (∃ text, t = .string text) ∨ t = .symbol .comma

/-- The sign of a relation. -/
def IsRelation (t : Token) : Prop :=
  t = .symbol .greater ∨ t = .symbol .less ∨ t = .symbol .dash ∨ t = .symbol .lessGreater

/-- An identifier. -/
def word : Phrase := token IsWord

/-- A name. -/
def name : Phrase := token IsName

/-- A text. -/
def text : Phrase := token IsText

/-! ## Names and paths -/

/-- A name, with the name of its schema or without. -/
def qualified : Phrase := sequence [name, optional (sequence [symbol .dot, name])]

/-- Fields in parentheses. -/
def fieldList : Phrase :=
  sequence [symbol .dot, symbol .openParen, name, star (sequence [symbol .comma, name]),
    symbol .closeParen]

/-- The place of a table or of fields of it. -/
def path : Phrase := sequence [name, star (sequence [symbol .dot, name]), optional fieldList]

/-! ## Settings -/

/-- The words of the given texts. -/
def words (texts : List String) : Phrase := fun ts rest =>
  ∃ taken, ts = taken ++ rest ∧ taken.map (·.token) = texts.map .identifier

/-- The key that words make up, in lower case and with spaces between them. -/
def key (texts : List String) : String :=
  Grammar.joinWords (texts.map fun w => String.ofList (Text.lower w.toList))

/-- A value other than a reference. -/
def literal : Phrase :=
  choice [token IsLiteral, sequence [symbol .dash, token IsNumeral], sequence [word, star word]]

/-- The value of a setting with the given key. -/
def value (key : String) : Phrase :=
  if key = "ref" then sequence [token IsRelation, path] else literal

/-- One setting. -/
def setting : Phrase := fun ts rest =>
  ∃ texts mid, texts ≠ [] ∧ words texts ts mid ∧
    optional (sequence [symbol .colon, value (key texts)]) mid rest

/-- Settings in brackets. -/
def settings : Phrase :=
  sequence [symbol .openBracket, star (sequence [setting, symbol .comma]), optional setting,
    symbol .closeBracket]

/-! ## Blocks -/

/-- What may stand between the braces of a block: blocks and tokens other than braces. -/
inductive inside : Phrase
  | nil {ts : List Located} : inside ts ts
  | other {t : Located} {ts rest : List Located} : t.token ≠ .symbol .openBrace →
      t.token ≠ .symbol .closeBrace → inside ts rest → inside (t :: ts) rest
  | block {t u : Located} {ts mid rest : List Located} : t.token = .symbol .openBrace →
      inside ts (u :: mid) → u.token = .symbol .closeBrace → inside mid rest →
      inside (t :: ts) rest

/-- A block in braces. -/
def block : Phrase := sequence [symbol .openBrace, inside, symbol .closeBrace]

/-- A declaration that means nothing for the diagram, behind its keyword. -/
def skipped : Phrase :=
  sequence [star (choice [settings,
    token fun t => t ≠ .symbol .openBrace ∧ t ≠ .symbol .openBracket]), block]

/-! ## Types -/

/-- Whether the next token is a word or a quoted name on the given line. -/
def BeginsType (line : Nat) (ts : List Located) : Prop :=
  ∃ t rest, ts = t :: rest ∧ IsName t.token ∧ t.position.line = line

/-- Whether the next two tokens are brackets with nothing between them. -/
def BeginsArray (ts : List Located) : Prop :=
  ∃ t u rest, ts = t :: u :: rest ∧ t.token = .symbol .openBracket ∧
    u.token = .symbol .closeBracket

/-- The two brackets of an array type, which belong to the type wherever they follow it. -/
def arraySuffix : Phrase :=
  choice [sequence [symbol .openBracket, symbol .closeBracket], ahead (¬ BeginsArray ·) empty]

/-- The type that begins with a word. -/
def typeExpression : Phrase :=
  sequence [word, optional (sequence [symbol .dot, name]),
    optional (sequence [symbol .openParen, star (token IsArgument), symbol .closeParen]),
    arraySuffix]

/-- The type of a field whose name stands on the given line. -/
def fieldType (line : Nat) : Phrase :=
  choice [ahead (BeginsType line) (choice [token IsQuoted, typeExpression]),
    ahead (¬ BeginsType line ·) empty]

/-! ## Tables -/

/-- A field. -/
def field : Phrase := fun ts rest =>
  ∃ t mid, ts = t :: mid ∧ IsName t.token ∧
    sequence [fieldType t.position.line, optional settings] mid rest

/-- Whether `note` or `indexes` stands before the token that makes it more than a name. -/
def BeginsSpecial (ts : List Located) : Prop :=
  ∃ t u rest, ts = t :: u :: rest ∧
    (t.token.isKeyword .note = true ∧ (u.token = .symbol .colon ∨ u.token = .symbol .openBrace) ∨
      t.token.isKeyword .indexes = true ∧ u.token = .symbol .openBrace)

/-- A part of the body of a table. -/
def item : Phrase :=
  choice [sequence [keyword .note, symbol .colon, text],
    sequence [keyword .note, symbol .openBrace, text, symbol .closeBrace],
    sequence [keyword .indexes, block],
    ahead (¬ BeginsSpecial ·) field]

/-- A table, behind its keyword. -/
def table : Phrase :=
  sequence [qualified, optional (sequence [keyword .as, name]), optional settings,
    symbol .openBrace, star item, symbol .closeBrace]

/-! ## References and enumerations -/

/-- A reference between two places. -/
def reference : Phrase := sequence [path, token IsRelation, path, optional settings]

/-- The references of a declaration, behind its keyword. -/
def references : Phrase :=
  sequence [optional name, choice [sequence [symbol .colon, reference],
    sequence [symbol .openBrace, star reference, symbol .closeBrace]]]

/-- An enumeration, behind its keyword. -/
def enumeration : Phrase :=
  sequence [qualified, symbol .openBrace, star (sequence [name, optional settings]),
    symbol .closeBrace]

/-! ## Documents -/

/-- A declaration. -/
def declaration : Phrase :=
  choice [sequence [keyword .table, table], sequence [keyword .ref, references],
    sequence [keyword .enum, enumeration],
    sequence [choice [keyword .project, keyword .tableGroup, keyword .note], skipped]]

/-- A document. -/
def document : Phrase := star declaration

end SchemaDiagram.Rule
