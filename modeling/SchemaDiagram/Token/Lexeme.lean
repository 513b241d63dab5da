import SchemaDiagram.Text.Blank
import SchemaDiagram.Text.Letter
import SchemaDiagram.Token
import SchemaDiagram.Token.Quotes

/-!
# SchemaDiagram.Token.Lexeme

The pieces a source text falls into.

1. A `Lexeme` is a gap or a token, together with the characters it is written with.  Gaps are
   blanks and comments: from two slashes to the end of the line, or between `/*` and `*/`.
2. `Lexeme.first` takes the longest piece off the front of a text, or says why there is none.
   Nothing is lost: the characters of the piece and the rest make up the text
   (`append_of_first`).
-/

namespace SchemaDiagram

/-- A piece of source text: a token, or a gap if it has none. -/
structure Lexeme where
  text : List Char
  token : Option Token
  deriving DecidableEq, Repr

/-- Why a text does not go on with a piece. -/
inductive Fault where
  | unexpectedCharacter (c : Char)
  | unterminatedString
  | unterminatedComment
  deriving DecidableEq, Repr

namespace Lexeme

/-- A gap. -/
def gap (text : List Char) : Lexeme := ⟨text, none⟩

/-! ## Words and numbers -/

/-- A character that may stand inside an identifier. -/
def isNameChar (c : Char) : Bool := Text.isAlphanumeric c || c = '_'

/-- A character that may begin an identifier. -/
def isNameStart (c : Char) : Bool := Text.isAlphabetic c || c = '_'

/-- An identifier that begins with the given characters, and the rest of the text. -/
def identifier (begun cs : List Char) : Lexeme × List Char :=
  let text := begun ++ cs.takeWhile isNameChar
  (⟨text, some (.identifier (String.ofList text))⟩, cs.dropWhile isNameChar)

/-- A number: the given characters and what is left of the text. -/
def numeral (text cs : List Char) : Lexeme × List Char :=
  (⟨text, some (.number (String.ofList text))⟩, cs)

/-- A number that begins with a digit, and the rest of the text.  Digits that run into a letter are
the beginning of an identifier, unless there is a point between. -/
def number (c : Char) (cs : List Char) : Lexeme × List Char :=
  let digits := c :: cs.takeWhile Text.isDigit
  match cs.dropWhile Text.isDigit with
  | '.' :: after =>
    numeral (digits ++ '.' :: after.takeWhile Text.isDigit) (after.dropWhile Text.isDigit)
  | [] => numeral digits []
  | d :: after =>
    if isNameStart d then identifier digits (d :: after) else numeral digits (d :: after)

/-- A colour, from its number sign on. -/
def color (cs : List Char) : Lexeme × List Char :=
  let text := '#' :: cs.takeWhile Text.isHexDigit
  (⟨text, some (.color (String.ofList text))⟩, cs.dropWhile Text.isHexDigit)

/-! ## Quoted text and comments -/

/-- Text between two quotes of one kind, as the token that `make` builds of it. -/
def between (quote : Char) (make : String → Token) (cs : List Char) :
    Except Fault (Lexeme × List Char) :=
  match Token.Quotes.cut quote cs with
  | none => .error .unterminatedString
  | some (body, rest) =>
    .ok (⟨quote :: body ++ [quote], some (make (String.ofList (Token.Quotes.unescape body)))⟩, rest)

/-- Text between triple quotes, the first of them taken off. -/
def betweenTriple (cs : List Char) : Except Fault (Lexeme × List Char) :=
  match Token.Quotes.cutTriple cs with
  | none => .error .unterminatedString
  | some (body, rest) =>
    .ok (⟨'\'' :: '\'' :: '\'' :: body ++ ['\'', '\'', '\''],
      some (.string (String.ofList (Token.Quotes.unescapeTriple body)))⟩, rest)

/-- The inside of a comment up to the star and slash that close it, and the text behind them. -/
def cutComment : List Char → Option (List Char × List Char)
  | [] => none
  | '*' :: '/' :: cs => some ([], cs)
  | c :: cs => (cutComment cs).map fun (body, rest) => (c :: body, rest)

/-- A comment between `/*` and `*/`, the opening taken off. -/
def blockComment (cs : List Char) : Except Fault (Lexeme × List Char) :=
  match cutComment cs with
  | none => .error .unterminatedComment
  | some (body, rest) => .ok (gap ('/' :: '*' :: body ++ ['*', '/']), rest)

/-- A comment up to the end of the line. -/
def lineComment (cs : List Char) : Lexeme × List Char :=
  (gap (cs.takeWhile (· != '\n')), cs.dropWhile (· != '\n'))

/-! ## The first piece -/

/-- The piece a text begins with, given its first character, and the rest of the text. -/
def first (c : Char) (cs : List Char) : Except Fault (Lexeme × List Char) :=
  match c, cs with
  | '/', '/' :: after => .ok (lineComment ('/' :: '/' :: after))
  | '/', '*' :: after => blockComment after
  | '<', '>' :: after => .ok (⟨['<', '>'], some (.symbol .lessGreater)⟩, after)
  | '\'', '\'' :: '\'' :: after => betweenTriple after
  | '\'', cs => between '\'' .string cs
  | '"', cs => between '"' .quoted cs
  | '\x60', cs => between '\x60' .expression cs
  | '#', d :: after =>
    if Text.isHexDigit d then .ok (color (d :: after)) else .error (.unexpectedCharacter '#')
  | c, cs =>
    if Text.isBlank c then .ok (gap (c :: cs.takeWhile Text.isBlank), cs.dropWhile Text.isBlank)
    else if Text.isDigit c then .ok (number c cs)
    else if isNameStart c then .ok (identifier [c] cs)
    else match Symbol.ofChar? c with
      | some s => .ok (⟨[c], some (.symbol s)⟩, cs)
      | none => .error (.unexpectedCharacter c)

/-! ## Nothing is lost -/

/-- An identifier and the rest of the text are what it began with and the text behind that. -/
theorem append_of_identifier (begun cs : List Char) :
    (identifier begun cs).1.text ++ (identifier begun cs).2 = begun ++ cs := by
  simp [identifier]

/-- A number, or the identifier it turns out to be, and the rest are the text. -/
theorem append_of_number (c : Char) (cs : List Char) :
    (number c cs).1.text ++ (number c cs).2 = c :: cs := by
  have h := List.takeWhile_append_dropWhile (p := Text.isDigit) (l := cs)
  unfold number
  split
  · rename_i after hd
    rw [hd] at h
    simp [numeral, h]
  · rename_i hd
    rw [hd] at h
    simpa [numeral] using h
  · rename_i d after _ hd
    rw [hd] at h
    split
    · rw [append_of_identifier]
      simpa using h
    · simpa [numeral] using h

/-- A quoted token and the rest are the text from its quote on. -/
theorem append_of_between {quote : Char} {make : String → Token} {cs rest : List Char} {l : Lexeme}
    (h : between quote make cs = .ok (l, rest)) : l.text ++ rest = quote :: cs := by
  unfold between at h
  split at h
  · contradiction
  · rename_i body r hb
    cases h
    simp [← Token.Quotes.append_of_cut hb]

/-- A string and the rest are the text from its three quotes on. -/
theorem append_of_betweenTriple {cs rest : List Char} {l : Lexeme}
    (h : betweenTriple cs = .ok (l, rest)) : l.text ++ rest = '\'' :: '\'' :: '\'' :: cs := by
  unfold betweenTriple at h
  split at h
  · contradiction
  · rename_i body r hb
    cases h
    simp [← Token.Quotes.append_of_cutTriple hb]

/-- The inside of a comment, its end and the rest are the text. -/
theorem append_of_cutComment {cs body rest : List Char}
    (h : cutComment cs = some (body, rest)) : body ++ '*' :: '/' :: rest = cs := by
  fun_induction cutComment cs generalizing body rest with
  | case1 => contradiction
  | case2 => cases h; rfl
  | case3 c cs _ ih =>
    obtain ⟨⟨b, r⟩, hb, he⟩ := Option.map_eq_some_iff.1 h
    cases he
    simp [ih hb]

/-- A comment and the rest are the text from its opening on. -/
theorem append_of_blockComment {cs rest : List Char} {l : Lexeme}
    (h : blockComment cs = .ok (l, rest)) : l.text ++ rest = '/' :: '*' :: cs := by
  unfold blockComment at h
  split at h
  · contradiction
  · rename_i body r hb
    cases h
    simp [gap, ← append_of_cutComment hb]

/-- The characters of the first piece and the rest make up the text. -/
theorem append_of_first {c : Char} {cs rest : List Char} {l : Lexeme}
    (h : first c cs = .ok (l, rest)) : l.text ++ rest = c :: cs := by
  unfold first at h
  split at h
  · cases h; simp [gap]
  · exact append_of_blockComment h
  · cases h; rfl
  · exact append_of_betweenTriple h
  · exact append_of_between h
  · exact append_of_between h
  · exact append_of_between h
  · split at h
    · cases h; simp
    · contradiction
  · split at h
    · cases h; simp [gap]
    · split at h
      · rw [← append_of_number c cs, Except.ok.inj h]
      · split at h
        · cases h; exact append_of_identifier ..
        · split at h
          · cases h; rfl
          · contradiction

/-- A number has at least the digit it begins with. -/
theorem number_text_ne_nil (c : Char) (cs : List Char) : (number c cs).1.text ≠ [] := by
  unfold number
  split <;> try split
  all_goals simp [numeral, identifier]

/-- A piece has at least one character. -/
theorem text_ne_nil_of_first {c : Char} {cs rest : List Char} {l : Lexeme}
    (h : first c cs = .ok (l, rest)) : l.text ≠ [] := by
  unfold first at h
  split at h
  · cases h; simp [gap]
  · unfold blockComment at h; split at h <;> cases h; simp [gap]
  · cases h; simp
  · unfold betweenTriple at h; split at h <;> cases h; simp
  · unfold between at h; split at h <;> cases h; simp
  · unfold between at h; split at h <;> cases h; simp
  · unfold between at h; split at h <;> cases h; simp
  · split at h
    · cases h; simp
    · contradiction
  · split at h
    · cases h; simp [gap]
    · split at h
      · have := number_text_ne_nil c cs
        rwa [Except.ok.inj h] at this
      · split at h
        · cases h; simp
        · split at h
          · cases h; simp
          · contradiction

/-- What is left behind a piece is shorter than the text. -/
theorem length_lt_of_first {c : Char} {cs rest : List Char} {l : Lexeme}
    (h : first c cs = .ok (l, rest)) : rest.length < (c :: cs).length := by
  have hl := List.length_pos_iff.2 (text_ne_nil_of_first h)
  have := congrArg List.length (append_of_first h)
  rw [List.length_append] at this
  omega

end Lexeme

end SchemaDiagram
