/-!
# SchemaDiagram.Token.Quotes

Quoted text.

1. A quoted text ends at the first quote that no backslash escapes.  Between single or double
   quotes it stays on its line, unless a backslash comes before the line feed.
2. `cut` finds that end and keeps the body as it is written; `unescape` is what the body stands
   for.
3. Between triple quotes lines may end, and a backslash only says that the next character is
   itself.
-/

namespace SchemaDiagram.Token.Quotes

/-- The grave accent, which encloses expressions. -/
def grave : Char := '\x60'

/-! ## Single-character quotes -/

/-- The written body up to a closing quote, and the text behind that quote; none if there is no
such quote. -/
def cut (quote : Char) : List Char → Option (List Char × List Char)
  | [] => none
  | '\\' :: c :: cs => (cut quote cs).map fun (body, rest) => ('\\' :: c :: body, rest)
  | c :: cs =>
    if c = quote then some ([], cs)
    else if c = '\n' ∧ quote ≠ grave then none
    else (cut quote cs).map fun (body, rest) => (c :: body, rest)

/-- What a character stands for behind a backslash. -/
def escapeValue (c : Char) : Char :=
  match c with
  | 'n' => '\n'
  | 't' => '\t'
  | 'r' => '\r'
  | _ => c

/-- What a written body stands for. -/
def unescape : List Char → List Char
  | '\\' :: c :: cs => escapeValue c :: unescape cs
  | c :: cs => c :: unescape cs
  | [] => []

/-! ## Triple quotes -/

/-- The written body up to three closing quotes, and the text behind them. -/
def cutTriple : List Char → Option (List Char × List Char)
  | [] => none
  | '\\' :: c :: cs => (cutTriple cs).map fun (body, rest) => ('\\' :: c :: body, rest)
  | '\'' :: '\'' :: '\'' :: cs => some ([], cs)
  | c :: cs => (cutTriple cs).map fun (body, rest) => (c :: body, rest)

/-- What a body between triple quotes stands for. -/
def unescapeTriple : List Char → List Char
  | '\\' :: c :: cs => c :: unescapeTriple cs
  | c :: cs => c :: unescapeTriple cs
  | [] => []

/-! ## Nothing is lost -/

/-- The body, the quote and the rest make up the text. -/
theorem append_of_cut {quote : Char} {cs body rest : List Char}
    (h : cut quote cs = some (body, rest)) : body ++ quote :: rest = cs := by
  fun_induction cut quote cs generalizing body rest with
  | case1 => contradiction
  | case2 c cs ih =>
    obtain ⟨⟨b, r⟩, hb, he⟩ := Option.map_eq_some_iff.1 h
    cases he
    simp [ih hb]
  | case3 => cases h; simp_all
  | case4 => contradiction
  | case5 c cs _ _ _ ih =>
    obtain ⟨⟨b, r⟩, hb, he⟩ := Option.map_eq_some_iff.1 h
    cases he
    simp [ih hb]

/-- The body, three quotes and the rest make up the text. -/
theorem append_of_cutTriple {cs body rest : List Char}
    (h : cutTriple cs = some (body, rest)) : body ++ '\'' :: '\'' :: '\'' :: rest = cs := by
  fun_induction cutTriple cs generalizing body rest with
  | case1 => contradiction
  | case2 c cs ih =>
    obtain ⟨⟨b, r⟩, hb, he⟩ := Option.map_eq_some_iff.1 h
    cases he
    simp [ih hb]
  | case3 => cases h; rfl
  | case4 c cs _ _ ih =>
    obtain ⟨⟨b, r⟩, hb, he⟩ := Option.map_eq_some_iff.1 h
    cases he
    simp [ih hb]

end SchemaDiagram.Token.Quotes
