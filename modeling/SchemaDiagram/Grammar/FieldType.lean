import SchemaDiagram.Document
import SchemaDiagram.Parser.Progress
import SchemaDiagram.Text.Letter

/-!
# SchemaDiagram.Grammar.FieldType

The type of a field.

```
type = quoted | word [ "." name ] [ "(" { argument } ")" ] [ "[" "]" ]
```

A type stands on the line of the field's name; what begins on a later line is no type.  The
arguments are kept as text, with a space where two of them would run together.
-/

namespace SchemaDiagram.Grammar

open SchemaDiagram.Parser
open SchemaDiagram.Document (FieldType)

/-! ## Arguments -/

/-- A part of the arguments of a type. -/
inductive Argument where
  | word (text : String)
  | comma
  | string (text : String)
  deriving DecidableEq, Repr

namespace Argument

/-- The argument that a token is. -/
def ofToken? : Token → Option Argument
  | .identifier text | .number text => some (.word text)
  | .symbol .comma => some .comma
  | .string text => some (.string text)
  | _ => none

/-- Whether a text ends with a letter or a number. -/
def endsAlphanumeric (cs : List Char) : Bool := cs.getLast?.any Text.isAlphanumeric

/-- An argument written behind others: a word keeps its distance from a letter or a number. -/
def write (before : List Char) : Argument → List Char
  | word text => before ++ (if endsAlphanumeric before then [' '] else []) ++ text.toList
  | comma => before ++ [',']
  | string text => before ++ '\'' :: text.toList ++ ['\'']

/-- Arguments as text. -/
def text (args : List Argument) : String := String.ofList (args.foldl write [])

end Argument

/-! ## Types -/

/-- A name behind a point, with the point; nothing without a point. -/
def typeQualifier : Parser String := do
  if ← accept (is .dot) then
    let more ← name .typeName
    return "." ++ more
  else
    return ""

/-- The text of the arguments in parentheses; none without parentheses. -/
def typeArguments : Parser (Option String) := do
  if ← accept (is .openParen) then
    let args ← takeAll Argument.ofToken?
    symbol .closeParen .closeArguments
    return some (Argument.text args)
  else
    return none

/-- The type that begins with a word. -/
def typeExpression (first : String) : Parser FieldType := do
  let qualifier ← typeQualifier
  let args ← typeArguments
  let isArray ← acceptBoth (is .openBracket) (is .closeBracket)
  let applied := match args with
    | some text => "(" ++ text ++ ")"
    | none => ""
  return .expression (first ++ qualifier ++ applied ++ (if isArray then "[]" else "")) args

/-- The type of a field whose name stands on the given line. -/
def fieldType (line : Option Nat) : Parser FieldType := do
  let here ← line?
  if here = line then
    match ← take? Token.quoted? with
    | some text => return .quoted text
    | none =>
      match ← take? Token.word? with
      | some first => typeExpression first
      | none => return .absent
  else
    return .absent

/-! ## Progress -/

theorem shrinks_typeQualifier : Shrinks typeQualifier := by
  refine (shrinks_accept _).bind fun b => ?_
  split
  · exact (advances_name _).shrinks.bind fun _ => shrinks_pure _
  · exact shrinks_pure _

theorem shrinks_typeArguments : Shrinks typeArguments := by
  refine (shrinks_accept _).bind fun b => ?_
  split
  · exact (shrinks_takeAll _).bind fun _ => (advances_symbol _ _).shrinks.bind fun _ =>
      shrinks_pure _
  · exact shrinks_pure _

theorem shrinks_typeExpression (first : String) : Shrinks (typeExpression first) :=
  shrinks_typeQualifier.bind fun _ => shrinks_typeArguments.bind fun _ =>
    (shrinks_acceptBoth _ _).bind fun _ => shrinks_pure _

/-- A type leaves no more tokens than there were, even if it is missing. -/
theorem shrinks_fieldType (line : Option Nat) : Shrinks (fieldType line) := by
  refine shrinks_line?.bind fun here => ?_
  split
  · refine (shrinks_take? _).bind fun text => ?_
    split
    · exact shrinks_pure _
    · refine (shrinks_take? _).bind fun first => ?_
      split
      · exact shrinks_typeExpression _
      · exact shrinks_pure _
  · exact shrinks_pure _

end SchemaDiagram.Grammar
