import SnippetAudit.Decimal.Shortest

/-!
Doubles as text: with the shortest digits in positional or scientific form, and with one decimal
place.
-/

namespace SnippetAudit.Decimal

/-- How the shortest digits are laid out. Outside `positional`, the range of powers of ten that
are written without an exponent, the scientific form is used; no range means never. With `point`
a whole number still gets a fraction. -/
structure Layout where
  positional : Option (Int × Int)
  point : Bool
  undefined : String
  infinite : String

/-- Numbers of the JSON output: positional from five places after the point to sixteen before it. -/
def Layout.json : Layout :=
  ⟨some (-5, 15), true, "null", "null"⟩

/-- Numbers in running text: always positional, whole numbers without a fraction. -/
def Layout.plain : Layout :=
  ⟨none, false, "NaN", "inf"⟩

def sign (negative : Bool) : String :=
  if negative then "-" else ""

def zeros (n : Nat) : String :=
  String.ofList (List.replicate n '0')

/-- Digits with the decimal point behind the first `whole` of them. -/
def positionalForm (digits : List Char) (whole : Int) (point : Bool) : String :=
  if whole ≤ 0 then "0." ++ zeros (-whole).toNat ++ String.ofList digits
  else if whole < digits.length then
    String.ofList (digits.take whole.toNat) ++ "." ++ String.ofList (digits.drop whole.toNat)
  else
    String.ofList digits ++ zeros (whole - digits.length).toNat ++ (if point then ".0" else "")

/-- Digits with the decimal point behind the first of them and a power of ten. -/
def scientificForm (digits : List Char) (power : Int) : String :=
  let fraction := digits.drop 1
  String.ofList (digits.take 1) ++
    (if fraction.isEmpty then "" else "." ++ String.ofList fraction) ++
    "e" ++ (if power < 0 then "-" else "+") ++ toString power.natAbs

def Layout.text (layout : Layout) (x : Float) : String :=
  match Binary.ofFloat x with
  | .undefined => layout.undefined
  | .infinite negative =>
    if layout.infinite = layout.undefined then layout.infinite else sign negative ++ layout.infinite
  | .finite negative mantissa exponent =>
    let shown : Scaled := if mantissa = 0 then ⟨0, 0⟩ else shortest mantissa exponent
    let digits := Nat.toDigits 10 shown.digits
    let whole := digits.length + shown.exponent
    let inRange := match layout.positional with
      | none => true
      | some (low, high) => decide (low ≤ whole - 1 ∧ whole - 1 ≤ high)
    sign negative ++
      (if inRange then positionalForm digits whole layout.point
        else scientificForm digits (whole - 1))

/-- A double with one decimal place; a half goes to the even neighbour, and a negative number
keeps its sign when it rounds to zero. -/
def tenths (x : Float) : String :=
  match Binary.ofFloat x with
  | .undefined => "NaN"
  | .infinite negative => sign negative ++ "inf"
  | .finite negative mantissa exponent =>
    let numerator := mantissa * Nat.pow 2 exponent.toNat * 10
    let denominator := Nat.pow 2 (-exponent).toNat
    let low := numerator / denominator
    let left := 2 * (numerator % denominator)
    let count := if left < denominator ∨ (left = denominator ∧ low % 2 = 0) then low else low + 1
    sign negative ++ toString (count / 10) ++ "." ++ toString (count % 10)

end SnippetAudit.Decimal
