/-!
Doubles taken apart into exact integers, and rounding to a whole number.
-/

namespace SnippetAudit.Decimal

/-- What a double stands for. A finite one is `mantissa * 2 ^ exponent` with a sign. -/
inductive Binary where
  | undefined
  | infinite (negative : Bool)
  | finite (negative : Bool) (mantissa : Nat) (exponent : Int)
deriving DecidableEq, Repr

/-- A double read off its bits: one for the sign, eleven for the exponent, the rest for the
mantissa, whose leading one is left out unless the exponent field is zero. -/
def Binary.ofFloat (x : Float) : Binary :=
  let bits := x.toBits.toNat
  let negative := decide (Nat.pow 2 63 ≤ bits)
  let field : Nat := bits / Nat.pow 2 52 % Nat.pow 2 11
  let fraction := bits % Nat.pow 2 52
  if field = 2047 then
    if fraction = 0 then infinite negative else undefined
  else if field = 0 then finite negative fraction (-1074)
  else finite negative (Nat.pow 2 52 + fraction) ((field : Int) - 1075)

/-- The nearest whole number; a half goes away from zero. -/
def roundWhole (x : Float) : Float :=
  match Binary.ofFloat x with
  | .finite negative mantissa exponent =>
    if 0 ≤ exponent then x
    else
      let unit := Nat.pow 2 (-exponent).toNat
      let whole := Float.ofNat ((2 * mantissa + unit) / (2 * unit))
      if negative then -whole else whole
  | _ => x

/-- The nearest tenth; a half goes away from zero. -/
def roundTenth (x : Float) : Float :=
  roundWhole (x * 10.0) / 10.0

end SnippetAudit.Decimal
