import SchemaDiagram.Grammar.Expected

/-!
# SchemaDiagram.Parser

Parsers over lists of tokens.

A parser takes tokens off the front of a list and gives a value and the tokens that are left, or
stops with a `Mismatch`: what it expected, and the tokens that it found there instead.  Parsers form
a monad: a sequence stops where its first part that stops does.
-/

namespace SchemaDiagram

/-- Takes tokens off the front of a list, or stops. -/
def Parser (α : Type) : Type := List Located → Except Mismatch (α × List Located)

namespace Parser

/-- Takes no token. -/
protected def pure (a : α) : Parser α := fun ts => .ok (a, ts)

/-- One parser and then another, which may depend on the value of the first. -/
protected def bind (p : Parser α) (f : α → Parser β) : Parser β := fun ts =>
  match p ts with
  | .error m => .error m
  | .ok (a, rest) => f a rest

instance : Monad Parser where
  pure := Parser.pure
  bind := Parser.bind

/-- Stops before the next token. -/
def fail (e : Expected) : Parser α := fun ts => .error ⟨e, ts⟩

/-- The line of the next token; none at the end. -/
def line? : Parser (Option Nat) := fun ts => .ok (ts.head?.map (·.position.line), ts)

/-- Takes the next token if it is of a kind, and nothing otherwise. -/
def take? (f : Token → Option α) : Parser (Option α) := fun ts =>
  match ts with
  | [] => .ok (none, [])
  | t :: rest =>
    match f t.token with
    | some a => .ok (some a, rest)
    | none => .ok (none, t :: rest)

/-- Takes the next token, which has to be of a kind. -/
def take (f : Token → Option α) (e : Expected) : Parser α := fun ts =>
  match ts with
  | [] => .error ⟨e, []⟩
  | t :: rest =>
    match f t.token with
    | some a => .ok (a, rest)
    | none => .error ⟨e, t :: rest⟩

/-- Takes all tokens of a kind up to the first that is not. -/
def takeAll (f : Token → Option α) : Parser (List α) := fun ts =>
  match ts with
  | [] => .ok ([], [])
  | t :: rest =>
    match f t.token with
    | some a =>
      match takeAll f rest with
      | .error m => .error m
      | .ok (as, after) => .ok (a :: as, after)
    | none => .ok ([], t :: rest)

/-- Takes the next token if it passes a test; whether it did. -/
def accept (test : Token → Bool) : Parser Bool := fun ts =>
  match ts with
  | [] => .ok (false, [])
  | t :: rest => if test t.token then .ok (true, rest) else .ok (false, t :: rest)

/-- Takes the next two tokens if they pass a test each; whether they did. -/
def acceptBoth (first second : Token → Bool) : Parser Bool := fun ts =>
  match ts with
  | t :: u :: rest =>
    if first t.token && second u.token then .ok (true, rest) else .ok (false, t :: u :: rest)
  | ts => .ok (false, ts)

/-- Whether a token is a symbol. -/
def is (s : Symbol) (t : Token) : Bool := t = .symbol s

/-- A symbol that has to come next. -/
def symbol (s : Symbol) (e : Expected) : Parser Unit :=
  take (fun t => if is s t then some () else none) e

/-- A name that has to come next. -/
def name (e : Expected) : Parser String := take Token.name? e

/-- A parser that has to find a token. -/
def beforeEnd (e : Expected) (p : Parser α) : Parser α := fun ts =>
  match ts with
  | [] => .error ⟨e, []⟩
  | t :: rest => p (t :: rest)

/-- Names that each follow a separator, as long as what follows the separator does not pass a
test. -/
def namesAfter (separator : Symbol) (stop : Token → Bool) (e : Expected) :
    Parser (List String) := fun ts =>
  match ts with
  | [] => .ok ([], [])
  | [t] => if is separator t.token then .error ⟨e, []⟩ else .ok ([], [t])
  | t :: u :: rest =>
    if is separator t.token && !stop u.token then
      match u.token.name? with
      | none => .error ⟨e, u :: rest⟩
      | some n =>
        match namesAfter separator stop e rest with
        | .error m => .error m
        | .ok (ns, after) => .ok (n :: ns, after)
    else .ok ([], t :: u :: rest)

end Parser

end SchemaDiagram
