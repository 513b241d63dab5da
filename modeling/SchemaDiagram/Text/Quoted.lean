import SchemaDiagram.Text.Printable

/-!
# SchemaDiagram.Text.Quoted

A character as a message shows it: between single quotes, and spelled out where the character
itself would not be seen.
-/

namespace SchemaDiagram.Text

/-- A character by its number, as in `\u007f` but with the digits between braces and no zeros in
front. -/
def codePoint (c : Char) : String :=
  "\\u\x7b" ++ String.ofList (Nat.toDigits 16 c.toNat) ++ "\x7d"

/-- The spelling of a character between quotes: the usual escapes, the number of a character that
joins the one before it or has no picture, and itself otherwise. -/
def spelled (c : Char) : String :=
  match c with
  | '\x00' => "\\0"
  | '\t' => "\\t"
  | '\r' => "\\r"
  | '\n' => "\\n"
  | '\'' => "\\'"
  | '\\' => "\\\\"
  | _ =>
    if graphemeExtend.contains c || unprintable.contains c then codePoint c
    else String.singleton c

/-- A character between single quotes. -/
def quoted (c : Char) : String := "'" ++ spelled c ++ "'"

end SchemaDiagram.Text
