import SchemaDiagram.Position
import SchemaDiagram.Text.Blank

/-!
# SchemaDiagram.Diagnostic

What a compilation reports: a message, the place it is about, how severe it is, and a number that
stays the same when the wording changes.
-/

namespace SchemaDiagram

/-- How severe a diagnostic is. -/
inductive Severity where
  | error
  | warning
  deriving DecidableEq, Repr

/-- The word for a severity. -/
def Severity.text : Severity → String
  | error => "error"
  | warning => "warning"

/-- The causes of a failed compilation. -/
inductive Diagnostic.Cause where
  /-- A failure that says nothing about its place. -/
  | unstructured
  | unexpectedCharacter
  | unterminatedString
  | unterminatedComment
  | unexpectedToken
  | unexpectedEnd
  deriving DecidableEq, Repr

/-- The number of a cause. -/
def Diagnostic.Cause.number : Diagnostic.Cause → Nat
  | unstructured => 1001
  | unexpectedCharacter => 1002
  | unterminatedString => 1003
  | unterminatedComment => 1004
  | unexpectedToken => 3001
  | unexpectedEnd => 3002

/-- A message about a place in a source text. -/
structure Diagnostic where
  message : String
  location : Position
  severity : Severity
  code : Nat
  deriving DecidableEq, Repr

namespace Diagnostic

/-- A diagnostic of severity `error`. -/
def ofError (cause : Cause) (message : String) (location : Position) : Diagnostic :=
  ⟨message, location, .error, cause.number⟩

/-- The diagnostic of a failure without a place.  It points to the beginning of the text, and a
blank message is replaced. -/
def unstructured (message : String) : Diagnostic :=
  ofError .unstructured (if Text.isAllBlank message.toList then "Unknown error" else message) .start

/-- A diagnostic on one line: place, severity, number and message. -/
def text (d : Diagnostic) : String :=
  d.location.text ++ ": " ++ d.severity.text ++ "[" ++ toString d.code ++ "]: " ++ d.message

end Diagnostic

/-- The message of a list of diagnostics taken together: the first one, and how many follow. -/
def summary : List Diagnostic → String
  | [] => "compilation failed"
  | [only] => only.message
  | first :: rest => first.message ++ " (and " ++ toString rest.length ++ " more)"

end SchemaDiagram
