import SnippetAudit.Decimal.Binary

/-!
The shortest decimal that reads back as a given double. The decimals that do so form an interval
around the double; of the decimal grids with one digit, two digits and so on, the first that has a
point in the interval is taken, and on it the point nearest to the double.
-/

namespace SnippetAudit.Decimal

/-- A decimal `digits * 10 ^ exponent`. -/
structure Scaled where
  digits : Nat
  exponent : Int
deriving DecidableEq, Repr

/-- How many decimal digits a number has; zero has one. -/
def digitCount (n : Nat) : Nat :=
  (Nat.toDigits 10 n).length

/-- The power of ten just above `numerator / denominator`, as an exponent. -/
def magnitude (numerator denominator : Nat) : Int :=
  if denominator ≤ numerator then digitCount (numerator / denominator)
  else 1 - digitCount (denominator / numerator)

/-- The decimal without the zeros its digits end with; at most `fuel` of them are taken away. -/
def Scaled.strip : Nat → Scaled → Scaled
  | 0, x => x
  | fuel + 1, x =>
    if x.digits ≠ 0 ∧ x.digits % 10 = 0 then strip fuel ⟨x.digits / 10, x.exponent + 1⟩ else x

/-- The decimals that read back as `mantissa * 2 ^ exponent`, between `low` and `high` in units of
`2 ^ (exponent - 2)`. The ends belong to them when the mantissa is even. -/
structure Neighbourhood where
  low : Nat
  value : Nat
  high : Nat
  closed : Bool
  unit : Int

/-- The neighbourhood of a positive double. Below a power of two the doubles lie half as far apart.
-/
def Neighbourhood.of (mantissa : Nat) (exponent : Int) : Neighbourhood :=
  let gap := if mantissa = Nat.pow 2 52 ∧ -1074 < exponent then 1 else 2
  ⟨4 * mantissa - gap, 4 * mantissa, 4 * mantissa + 2, mantissa % 2 == 0, exponent - 2⟩

/-- The point of the grid `10 ^ exponent` that is nearest to the value among those in the
neighbourhood, if there is one; of two equally near points the even one. -/
def Neighbourhood.nearest? (around : Neighbourhood) (exponent : Int) : Option Scaled :=
  let side := Nat.pow 2 around.unit.toNat * Nat.pow 10 (-exponent).toNat
  let step := Nat.pow 10 exponent.toNat * Nat.pow 2 (-around.unit).toNat
  let value := around.value * side
  let below := value / step
  let fits (point : Nat) : Bool :=
    if around.closed then
      around.low * side ≤ point * step && point * step ≤ around.high * side
    else around.low * side < point * step && point * step < around.high * side
  let toBelow := value - below * step
  let toAbove := (below + 1) * step - value
  let preferBelow := toBelow < toAbove || (toBelow == toAbove && below % 2 == 0)
  if fits below && fits (below + 1) then
    some ⟨if preferBelow then below else below + 1, exponent⟩
  else if fits below then some ⟨below, exponent⟩
  else if fits (below + 1) then some ⟨below + 1, exponent⟩
  else none

/-- The shortest decimal that reads back as the positive double `mantissa * 2 ^ exponent`.
Seventeen digits always do. -/
def shortest (mantissa : Nat) (exponent : Int) : Scaled :=
  let around := Neighbourhood.of mantissa exponent
  let size := magnitude (mantissa * Nat.pow 2 exponent.toNat) (Nat.pow 2 (-exponent).toNat)
  let found := (List.range 17).findSome? fun more : Nat =>
    around.nearest? (size - ((more : Int) + 1))
  (found.getD ⟨0, 0⟩).strip 20

end SnippetAudit.Decimal
