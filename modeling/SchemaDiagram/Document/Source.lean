import SchemaDiagram.Diagnostic
import SchemaDiagram.Grammar
import SchemaDiagram.Token.Lexing

/-!
# SchemaDiagram.Document.Source

From a source text to the document it holds, or to the one error that says why it holds none.  The
tokens are read to the end first, so a fault in them is reported before any mistake in their order.
-/

namespace SchemaDiagram

/-! ## Errors -/

/-- Why a text is no document, and where. -/
inductive SyntaxError where
  | lexical (fault : Fault) (location : Position)
  | unexpected (found : Token) (expected : Expected) (location : Position)
  | unexpectedEnd (expected : Expected) (location : Position)
  deriving DecidableEq, Repr

namespace SyntaxError

/-- The place of an error. -/
def location : SyntaxError → Position
  | lexical _ p | unexpected _ _ p | unexpectedEnd _ p => p

/-- What a message says of an error. -/
def message : SyntaxError → String
  | lexical fault _ => fault.message
  | unexpected found expected _ =>
    "Unexpected " ++ found.description ++ ", expected " ++ expected.description
  | unexpectedEnd expected _ => "Unexpected end of input, expected " ++ expected.description

/-- The cause of an error. -/
def cause : SyntaxError → Diagnostic.Cause
  | lexical (.unexpectedCharacter _) _ => .unexpectedCharacter
  | lexical .unterminatedString _ => .unterminatedString
  | lexical .unterminatedComment _ => .unterminatedComment
  | unexpected _ _ _ => .unexpectedToken
  | unexpectedEnd _ _ => .unexpectedEnd

/-- An error as a diagnostic. -/
def diagnostic (e : SyntaxError) : Diagnostic := .ofError e.cause e.message e.location

/-- A mismatch among tokens that end at a position: the first token that is left is the one at
fault, or the end if none is. -/
def ofMismatch (finish : Position) (m : Mismatch) : SyntaxError :=
  match m.rest with
  | [] => .unexpectedEnd m.expected finish
  | t :: _ => .unexpected t.token m.expected t.position

end SyntaxError

/-! ## Documents -/

namespace Document

/-- The declarations among tokens that end at a position. -/
def Declarations.ofTokens (tokens : List Located) (finish : Position) :
    Except SyntaxError Declarations :=
  match Grammar.declarations tokens with
  | .error m => .error (.ofMismatch finish m)
  | .ok (d, _) => .ok d

/-- The document of a source text. -/
def ofSource (source : String) : Except SyntaxError Document :=
  let l := Lexing.of source
  match l.fault with
  | some fault => .error (.lexical fault l.finish)
  | none => (Declarations.ofTokens l.tokens l.finish).map ofDeclarations

end Document

end SchemaDiagram
