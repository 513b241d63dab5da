import SchemaDiagram.Decimal.Shortest
import SchemaDiagram.Json

/-!
# SchemaDiagram.Json.Float

Floating-point numbers in JSON.

1. A number is written with the fewest digits that read back.  From `10 ^ -5` up to `10 ^ 16` it is
   written in place, always with a point, otherwise as digits and a power of ten.  What is not
   finite is `null`.
2. A numeral is worth its digits times a power of ten, in floating-point arithmetic: as many
   leading digits as sixty-four bits hold, then one multiplication or division.  A numeral beyond
   the largest number has no value.
-/

namespace SchemaDiagram.Json

/-! ## Writing -/

/-- The numeral of a sign, digits and the exponent of the last digit. -/
def Numeral.ofDigits (negative : Bool) (digits : List Char) (e : Int) : Numeral :=
  let point : Int := digits.length + e
  if -5 < point && point ≤ 16 then
    if 0 ≤ e then ⟨negative, digits ++ List.replicate e.toNat '0', ['0'], none⟩
    else if 0 < point then
      ⟨negative, digits.take point.toNat, digits.drop point.toNat, none⟩
    else ⟨negative, ['0'], List.replicate (-point).toNat '0' ++ digits, none⟩
  else ⟨negative, digits.take 1, digits.drop 1, some (point - 1)⟩

/-- The shortest numeral that reads back as a finite number. -/
def Numeral.ofFloat (x : Float) : Numeral :=
  let bits := x.toBits.toNat
  let negative := decide (Nat.pow 2 63 ≤ bits)
  let size := bits % Nat.pow 2 63
  if size = 0 then ⟨negative, ['0'], ['0'], none⟩
  else
    let (digits, e) := Decimal.shortest (.ofBits size)
    .ofDigits negative (Nat.toDigits 10 digits) e

/-- A floating-point number, or `null` if it is not finite. -/
def float (x : Float) : Json := if x.isFinite then .number (.ofFloat x) else .null

/-! ## Reading -/

/-- Leading digits that fit in sixty-four bits, continued by more: the number they make, and how
many digits were left out. -/
def leadingDigits (value : Nat) : List Char → Nat × Nat
  | [] => (value, 0)
  | c :: cs =>
    let next := value * 10 + (c.toNat - '0'.toNat)
    if next < Nat.pow 2 64 then leadingDigits next cs else (value, (c :: cs).length)

/-- The power of ten as a floating-point number, for exponents up to 308. -/
def tenTo (n : Nat) : Float := Float.ofScientific 1 false n

/-- A number multiplied by a power of ten; none beyond the largest one. -/
def scaleUp (x : Float) (n : Nat) : Option Float :=
  if n ≤ 308 then
    let y := x * tenTo n
    if y.isInf then none else some y
  else if x == 0 then some x
  else none

/-- A number divided by a power of ten, by at most 308 places at a time. -/
def scaleDown (x : Float) (n : Nat) : Float :=
  if n ≤ 308 then x / tenTo n
  else if x == 0 then x
  else scaleDown (x / tenTo 308) (n - 308)
termination_by n
decreasing_by omega

/-- What a numeral is worth, if that is finite. -/
def Numeral.toFloat? (n : Numeral) : Option Float :=
  let (whole, dropped) := leadingDigits 0 n.whole
  let (digits, unread) := leadingDigits whole n.fraction
  let e : Int := n.exponent.getD 0 + dropped - (n.fraction.length - unread : Nat)
  let size := digits.toUInt64.toFloat
  let scaled := if 0 ≤ e then scaleUp size e.toNat else some (scaleDown size (-e).toNat)
  scaled.map fun x => if n.negative then -x else x

end SchemaDiagram.Json
