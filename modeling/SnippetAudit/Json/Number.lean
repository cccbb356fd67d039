import SnippetAudit.Data.Basic
import SnippetAudit.Text.Digit

/-!
Numbers read from JSON text. A whole number of at most 64 bits stays whole. Any other number becomes
a double in two steps, each of which rounds: as many of its digits as 64 bits hold, and then a power
of ten.
-/

namespace SnippetAudit.Json

open Text

/-- Digits taken into 64 bits, and the power of ten that is left over. -/
structure Significand where
  digits : Nat
  power : Int
  full : Bool

/-- Takes in digits before the decimal point. Once the next digit would not fit, it and all after
it are counted only. -/
def Significand.takeWhole (s : Significand) (c : Char) : Significand :=
  if s.full then { s with power := s.power + 1 }
  else if s.digits * 10 + digitValue c < Nat.pow 2 64 then
    { s with digits := s.digits * 10 + digitValue c }
  else { s with power := s.power + 1, full := true }

/-- Takes in digits behind the decimal point. Once the next digit would not fit, it and all after
it are dropped. -/
def Significand.takeFraction (s : Significand) (c : Char) : Significand :=
  if s.full then s
  else if s.digits * 10 + digitValue c < Nat.pow 2 64 then
    { s with digits := s.digits * 10 + digitValue c, power := s.power - 1 }
  else { s with full := true }

def tenTo (power : Nat) : Float :=
  Float.ofScientific 1 false power

/-- A double times a power of ten, three hundred and eight places at most in one step. A number too
large for a double is refused, one too small is zero. -/
def scale : Nat → Float → Int → Option Float
  | 0, x, _ => some x
  | fuel + 1, x, power =>
    if power.natAbs ≤ 308 then
      if 0 ≤ power then
        let y := x * tenTo power.toNat
        if y.isInf then none else some y
      else some (x / tenTo power.natAbs)
    else if x == 0.0 then some x
    else if 0 ≤ power then none
    else scale fuel (x / tenTo 308) (power + 308)

/-- The double that digits and a power of ten stand for. Four steps of scaling reach zero. -/
def double? (negative : Bool) (s : Significand) : Option Data :=
  (scale 5 (Float.ofNat s.digits) s.power).map fun x => .decimal (if negative then -x else x)

/-- A number without fraction and exponent: whole if 64 bits hold it, signed or not. A negative
zero is a double. -/
def whole? (negative : Bool) (s : Significand) : Option Data :=
  if s.full then double? negative s
  else if negative then
    if s.digits = 0 ∨ Nat.pow 2 63 < s.digits then double? true s
    else some (.whole (-(s.digits : Int)))
  else some (.whole s.digits)

/-- The exponent of a number: a sign, perhaps, and digits. -/
def exponent? (text : List Char) : Option (Int × List Char) :=
  let (negative, rest) := match text with
    | '+' :: rest => (false, rest)
    | '-' :: rest => (true, rest)
    | rest => (false, rest)
  let digits := rest.takeWhile isDigit
  if digits.isEmpty then none
  else
    let size := numberOf 10 digits
    some (if negative then -(size : Int) else size, rest.dropWhile isDigit)

/-- A number at the start of a text, and the text behind it. Before the point stands a zero alone,
or digits of which the first is not zero; behind it at least one digit. -/
def number? (text : List Char) : Option (Data × List Char) :=
  let (negative, rest) := match text with
    | '-' :: rest => (true, rest)
    | rest => (false, rest)
  let digits := rest.takeWhile isDigit
  if digits.isEmpty ∨ (digits.head? = some '0' ∧ 1 < digits.length) then none
  else
    let s := digits.foldl Significand.takeWhole ⟨0, 0, false⟩
    let finish (s : Significand) (text : List Char) (plain : Bool) : Option (Data × List Char) :=
      match text with
      | c :: later =>
        if c = 'e' ∨ c = 'E' then
          (exponent? later).bind fun (power, left) =>
            (double? negative { s with power := s.power + power }).map (·, left)
        else (if plain then whole? negative s else double? negative s).map (·, text)
      | [] => (if plain then whole? negative s else double? negative s).map (·, text)
    match rest.dropWhile isDigit with
    | '.' :: later =>
      let fraction := later.takeWhile isDigit
      if fraction.isEmpty then none
      else finish (fraction.foldl Significand.takeFraction { s with full := false })
        (later.dropWhile isDigit) false
    | later => finish s later true

end SnippetAudit.Json
