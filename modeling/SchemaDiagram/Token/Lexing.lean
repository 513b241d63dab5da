import SchemaDiagram.Text.Quoted
import SchemaDiagram.Token.Lexeme

/-!
# SchemaDiagram.Token.Lexing

The tokens of a source text and their positions.

1. `Lexeme.all` cuts a text into pieces, up to its end or to the first fault.
2. `Lexing.of` gives each token the position behind all the pieces before it, and keeps where the
   reading stopped: behind the last character, or at the first character of the piece that is at
   fault.
-/

namespace SchemaDiagram

namespace Lexeme

/-- All pieces of a text, in order, and the fault that ends them. -/
def all (cs : List Char) : List Lexeme × Option Fault :=
  match cs with
  | [] => ([], none)
  | c :: cs =>
    match h : first c cs with
    | .error fault => ([], some fault)
    | .ok (l, rest) =>
      have : rest.length < (c :: cs).length := length_lt_of_first h
      let (ls, fault) := all rest
      (l :: ls, fault)
termination_by cs.length
decreasing_by assumption

/-- The tokens among the pieces of a text that begins at a position, each with its own position. -/
def located (p : Position) : List Lexeme → List Located
  | [] => []
  | l :: ls =>
    (l.token.map fun t => (⟨t, p⟩ : Located)).toList ++ located (p.after l.text) ls

/-- The position behind all pieces of a text that begins at a position. -/
def finish (p : Position) : List Lexeme → Position
  | [] => p
  | l :: ls => finish (p.after l.text) ls

end Lexeme

/-- What a message says of a fault. -/
def Fault.message : Fault → String
  | unexpectedCharacter c => "Unexpected character: " ++ Text.quoted c
  | unterminatedString => "Unterminated string"
  | unterminatedComment => "Unterminated comment"

/-- The tokens of a source text, where the reading of it stopped, and why, if that was not the end
of the text. -/
structure Lexing where
  tokens : List Located
  finish : Position
  fault : Option Fault
  deriving DecidableEq, Repr

/-- Reads all tokens of a text, from its first character on. -/
def Lexing.of (source : String) : Lexing :=
  let (lexemes, fault) := Lexeme.all source.toList
  ⟨Lexeme.located .start lexemes, Lexeme.finish .start lexemes, fault⟩

end SchemaDiagram
