/-!
# SchemaDiagram.Json

JSON values.  A number is kept as it is written, so that reading one does not decide yet what it is
worth, and the members of an object keep their order and their repetitions.
-/

namespace SchemaDiagram

/-- A JSON number: a sign, digits, and possibly digits behind a point and a power of ten. -/
structure Json.Numeral where
  negative : Bool
  whole : List Char
  fraction : List Char
  exponent : Option Int
  deriving DecidableEq, Repr

/-- A JSON value. -/
inductive Json where
  | null
  | bool (b : Bool)
  | number (n : Json.Numeral)
  | string (s : String)
  | array (items : List Json)
  | object (members : List (String × Json))

namespace Json

/-- The digits of a natural number. -/
def Numeral.ofNat (n : Nat) : Numeral := ⟨false, Nat.toDigits 10 n, [], none⟩

/-- A natural number. -/
def nat (n : Nat) : Json := .number (.ofNat n)

/-- A value that may be missing; a missing one is `null`. -/
def ofOption (f : α → Json) : Option α → Json
  | none => .null
  | some a => f a

/-- A member that is left out when its value is missing. -/
def optional (key : String) (f : α → Json) : Option α → List (String × Json)
  | none => []
  | some a => [(key, f a)]

/-- The values of a member, in order; an object may repeat it. -/
def valuesOf (key : String) (members : List (String × Json)) : List Json :=
  (members.filter (·.1 == key)).map (·.2)

end Json

end SchemaDiagram
