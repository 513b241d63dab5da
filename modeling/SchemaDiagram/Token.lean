import SchemaDiagram.Position
import SchemaDiagram.Text.LowerCase

/-!
# SchemaDiagram.Token

The words of a schema document.  A token carries its meaning, not its spelling: a string has its
escapes already replaced.  `Token.description` is how messages speak of a token.
-/

namespace SchemaDiagram

/-! ## Symbols -/

/-- Punctuation and the relation signs. -/
inductive Symbol where
  | openBrace
  | closeBrace
  | openParen
  | closeParen
  | openBracket
  | closeBracket
  | comma
  | colon
  | dot
  | greater
  | less
  | dash
  | lessGreater
  deriving DecidableEq, Repr

namespace Symbol

/-- The characters of a symbol. -/
def chars : Symbol → List Char
  | openBrace => ['{']
  | closeBrace => ['}']
  | openParen => ['(']
  | closeParen => [')']
  | openBracket => ['[']
  | closeBracket => [']']
  | comma => [',']
  | colon => [':']
  | dot => ['.']
  | greater => ['>']
  | less => ['<']
  | dash => ['-']
  | lessGreater => ['<', '>']

/-- The symbol that a character is on its own. -/
def ofChar? (c : Char) : Option Symbol :=
  match c with
  | '{' => some openBrace
  | '}' => some closeBrace
  | '(' => some openParen
  | ')' => some closeParen
  | '[' => some openBracket
  | ']' => some closeBracket
  | ',' => some comma
  | ':' => some colon
  | '.' => some dot
  | '>' => some greater
  | '<' => some less
  | '-' => some dash
  | _ => none

/-- A symbol is read from the one character it is written with. -/
theorem chars_of_ofChar? {c : Char} {s : Symbol} (h : ofChar? c = some s) : s.chars = [c] := by
  unfold ofChar? at h
  split at h <;> simp_all [chars] <;> subst h <;> rfl

end Symbol

/-! ## Tokens -/

/-- A word of a document. -/
inductive Token where
  | identifier (text : String)
  /-- Text between single quotes. -/
  | string (text : String)
  /-- A name between double quotes. -/
  | quoted (text : String)
  /-- Text between grave accents. -/
  | expression (text : String)
  | number (text : String)
  /-- A colour, with its number sign. -/
  | color (text : String)
  | symbol (s : Symbol)
  deriving DecidableEq, Repr

/-- The words with a meaning of their own.  They are reserved only where they are looked for, and
are written in any case. -/
inductive Keyword where
  | table
  | ref
  | enum
  | project
  | tableGroup
  | note
  | as
  | indexes
  deriving DecidableEq, Repr

/-- A keyword in lower case. -/
def Keyword.spelling : Keyword → String
  | table => "table"
  | ref => "ref"
  | enum => "enum"
  | project => "project"
  | tableGroup => "tablegroup"
  | note => "note"
  | as => "as"
  | indexes => "indexes"

namespace Token

/-- What a message calls the token. -/
def description : Token → String
  | identifier text => "identifier \x60" ++ text ++ "\x60"
  | string text => "string '" ++ text ++ "'"
  | quoted text => "quoted name \"" ++ text ++ "\""
  | expression text => "expression \x60" ++ text ++ "\x60"
  | number text => "number " ++ text
  | color text => "colour " ++ text
  | symbol s => "'" ++ String.ofList s.chars ++ "'"

/-- The name that a token can be: an identifier or a quoted name. -/
def name? : Token → Option String
  | identifier text | quoted text => some text
  | _ => none

/-- The text that a token can be: between single or double quotes. -/
def text? : Token → Option String
  | string text | quoted text => some text
  | _ => none

/-- The identifier that a token can be. -/
def word? : Token → Option String
  | identifier text => some text
  | _ => none

/-- The quoted name that a token can be. -/
def quoted? : Token → Option String
  | quoted text => some text
  | _ => none

/-- The number that a token can be. -/
def number? : Token → Option String
  | number text => some text
  | _ => none

/-- The text that a token other than a word can stand for. -/
def literal? : Token → Option String
  | string text | quoted text | expression text | number text | color text => some text
  | _ => none

/-- Whether the token is a keyword; a quoted name is none. -/
def isKeyword (k : Keyword) : Token → Bool
  | identifier text => Text.lowerAscii text.toList = k.spelling.toList
  | _ => false

end Token

/-- A token and the position of its first character. -/
structure Located where
  token : Token
  position : Position
  deriving DecidableEq, Repr

end SchemaDiagram
