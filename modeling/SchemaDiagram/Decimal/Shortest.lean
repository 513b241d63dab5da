/-!
# SchemaDiagram.Decimal.Shortest

The fewest decimal digits that read back as a given binary floating-point number.

1. A positive number is `mantissa · 2 ^ exponent`; the reals that round to it form an interval
   around it, ends included when the mantissa is even (`Rounding`).
2. The multiples of `10 ^ e` are the decimal grid of exponent `e`.  The coarsest grid that has a
   point in the interval gives the fewest digits, and if a grid has a point there then one of the
   two grid points next to the number is in it (`Rounding.onGrid`).
3. Of two such points the nearer one is taken, and of two equally near ones the even one.
-/

namespace SchemaDiagram.Decimal

/-- The reals that round to `mantissa · 2 ^ exponent`.  The interval is narrower below when the
mantissa is the least one of its binary order. -/
structure Rounding where
  mantissa : Nat
  exponent : Int
  atBoundary : Bool
  deriving DecidableEq, Repr

namespace Rounding

/-- The interval around a positive floating-point number, from its bits. -/
def ofBits (bits : Nat) : Rounding :=
  let biased : Nat := bits / Nat.pow 2 52 % Nat.pow 2 11
  let fraction : Nat := bits % Nat.pow 2 52
  if biased = 0 then ⟨fraction, -1074, false⟩
  else ⟨Nat.pow 2 52 + fraction, (biased : Int) - 1075, fraction = 0 && biased ≠ 1⟩

/-- Four times the number; the ends of the interval are whole in this scale. -/
def middle (r : Rounding) : Nat := 4 * r.mantissa

/-- The lower end, in quarters. -/
def low (r : Rounding) : Nat := r.middle - (if r.atBoundary then 1 else 2)

/-- The upper end, in quarters. -/
def high (r : Rounding) : Nat := r.middle + 2

/-- Whether `n / d`, in quarters, lies in the interval. -/
def covers (r : Rounding) (n d : Nat) : Bool :=
  if r.mantissa % 2 = 0 then r.low * d ≤ n && n ≤ r.high * d
  else r.low * d < n && n < r.high * d

/-- The quotient `n / d` of the grid of exponent `e` by the quarters of the interval: a count `k` of
grid steps is `k · n / d` quarters. -/
def gridStep (r : Rounding) (e : Int) : Nat × Nat :=
  (Nat.pow 2 (2 - r.exponent).toNat * Nat.pow 10 e.toNat,
    Nat.pow 2 (r.exponent - 2).toNat * Nat.pow 10 (-e).toNat)

/-- The point of a grid that stands for the number, as a count of its steps, if one lies in the
interval. -/
def onGrid (r : Rounding) (e : Int) : Option Nat :=
  let (n, d) := r.gridStep e
  let below := r.middle * d / n
  let above := below + 1
  let hasBelow := 0 < below && r.covers (below * n) d
  let hasAbove := r.covers (above * n) d
  if hasBelow && hasAbove then
    let toBelow := r.middle * d - below * n
    let toAbove := above * n - r.middle * d
    if toBelow < toAbove || (toBelow = toAbove && below % 2 = 0) then some below else some above
  else if hasBelow then some below
  else if hasAbove then some above
  else none

/-- The first of the grids of exponent `e`, `e - 1`, … that meets the interval, at most `fuel` of
them. -/
def search (r : Rounding) (e : Int) : Nat → Nat × Int
  | 0 => (0, e)
  | fuel + 1 =>
    match r.onGrid e with
    | some k => (k, e)
    | none => r.search (e - 1) fuel

/-- A grid so coarse that it has no point in the interval besides zero. -/
def coarsest (r : Rounding) : Int := Int.fdiv ((r.exponent + 53) * 30103) 100000 + 2

end Rounding

/-- The digits, as a number, and the exponent of the last one.  Forty grids are enough: the seventeen
of a full mantissa, and as many again for a mantissa with leading zeros. -/
def shortest (r : Rounding) : Nat × Int := r.search r.coarsest 40

end SchemaDiagram.Decimal
