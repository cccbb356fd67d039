import SnippetAudit.Calendar.Date
import SnippetAudit.Data.Basic
import SnippetAudit.Text.Digit
import SnippetAudit.Text.Lines

/-!
Single values that are written without quotes: truth values, whole numbers, decimal numbers, and
dates and times. Whole numbers have 64 bits with a sign. Underscores may stand between digits.
-/

namespace SnippetAudit.Toml

open Text

/-- Digits of a base without the underscores between them. There is at least one digit, and every
underscore has a digit on both sides. -/
def digits? (base : Nat) (text : List Char) : Option (List Char) :=
  let groups := pieces '_' text
  if groups.all fun group => !group.isEmpty && group.all (isDigitOf base) then
    some groups.flatten
  else none

/-- A sign, if there is one, and what is behind it: `true` for a minus. -/
def signed : List Char → Bool × List Char
  | '+' :: rest => (false, rest)
  | '-' :: rest => (true, rest)
  | rest => (false, rest)

/-- Digits of base ten of which the first is not a zero, unless it is the only one. -/
def plainDigits? (text : List Char) : Option (List Char) :=
  (digits? 10 text).filter fun digits => digits.head? ≠ some '0' || digits.length = 1

/-- A whole number, if 64 bits with a sign hold it. -/
def bounded? (value : Int) : Option Data :=
  if -(Nat.pow 2 63) ≤ value ∧ value < Nat.pow 2 63 then some (.whole value) else none

/-- A whole number: of base ten with a sign or without, or of another base without one. -/
def whole? : List Char → Option Data
  | '0' :: 'x' :: rest => digits? 16 rest >>= fun digits => bounded? (numberOf 16 digits)
  | '0' :: 'o' :: rest => digits? 8 rest >>= fun digits => bounded? (numberOf 8 digits)
  | '0' :: 'b' :: rest => digits? 2 rest >>= fun digits => bounded? (numberOf 2 digits)
  | text =>
    let (negative, rest) := signed text
    plainDigits? rest >>= fun digits =>
      let size : Int := numberOf 10 digits
      bounded? (if negative then -size else size)

/-- The double nearest to `mantissa * 10 ^ power`. Beyond four hundred places the number is zero or
too large for any double, and then it is refused. -/
def nearest? (mantissa : Nat) (power : Int) : Option Float :=
  let places := (Nat.toDigits 10 mantissa).length + power
  if mantissa = 0 ∨ places < -400 then some 0.0
  else if 400 < places then none
  else
    let x := Float.ofScientific mantissa (decide (power < 0)) power.natAbs
    if x.isInf then none else some x

/-- A decimal number without its sign: digits, and a fraction or an exponent or both. -/
def decimalSize? (text : List Char) : Option Float := do
  let isMark (c : Char) := c = '.' || c = 'e' || c = 'E'
  let digits ← plainDigits? (text.takeWhile (!isMark ·))
  let rest := text.dropWhile (!isMark ·)
  let (fraction, rest) ← match rest with
    | '.' :: rest =>
      (digits? 10 (rest.takeWhile (!isMark ·))).map fun fraction =>
        (fraction, rest.dropWhile (!isMark ·))
    | rest => some ([], rest)
  let power ← match rest with
    | [] => if fraction.isEmpty then none else some (0 : Int)
    | mark :: rest =>
      if mark = '.' then none
      else
        let (negative, rest) := signed rest
        (digits? 10 rest).map fun digits =>
          if negative then -(numberOf 10 digits : Int) else numberOf 10 digits
  nearest? (numberOf 10 (digits ++ fraction)) (power - fraction.length)

/-- A decimal number, or a word for a number that is none. -/
def decimal? (text : List Char) : Option Data :=
  let (negative, rest) := signed text
  let size? : Option Float :=
    if rest = "inf".toList then some (1.0 / 0.0)
    else if rest = "nan".toList then some (0.0 / 0.0)
    else decimalSize? rest
  size?.map fun size => .decimal (if negative then -size else size)

/-- A number of exactly so many digits, and the text behind it. -/
def exactNumber? (count : Nat) (text : List Char) : Option (Nat × List Char) :=
  let digits := text.take count
  if digits.length = count ∧ digits.all isDigit then some (numberOf 10 digits, text.drop count)
  else none

def date? (text : List Char) : Option (List Char) := do
  let (year, rest) ← exactNumber? 4 text
  let (month, rest) ← exactNumber? 2 (← after? ['-'] rest)
  let (day, rest) ← exactNumber? 2 (← after? ['-'] rest)
  if (Date.mk year month day).isValid then some rest else none

/-- A time of day, and the text behind it. The seconds may be left out. -/
def time? (text : List Char) : Option (List Char) := do
  let (hour, rest) ← exactNumber? 2 text
  let (minute, rest) ← exactNumber? 2 (← after? [':'] rest)
  if 23 < hour ∨ 59 < minute then none
  else match rest with
    | ':' :: rest =>
      let (second, rest) ← exactNumber? 2 rest
      if 60 < second then none
      else match rest with
        | '.' :: rest =>
          let fraction := rest.takeWhile isDigit
          if fraction.isEmpty then none else some (rest.drop fraction.length)
        | rest => some rest
    | rest => some rest

/-- The whole of a text is the offset of a time from universal time, or nothing. -/
def isOffset : List Char → Bool
  | [] => true
  | [c] => c = 'z' || c = 'Z'
  | sign :: rest =>
    (sign = '+' || sign = '-') && (time? rest).any (·.isEmpty) && rest.length = 5

/-- The whole of a text is a date, a time of day, or both with an offset or without. -/
def isMoment (text : List Char) : Bool :=
  match date? text with
  | some [] => true
  | some (c :: rest) =>
    (c = 'T' || c = 't' || c = ' ') && (time? rest).any isOffset
  | none => (time? text).any (·.isEmpty)

/-- The value that is written without quotes as the given text. A date or a time is read as a table
without members: it is a record of fields that no other record has. -/
def scalar? (text : List Char) : Option Data :=
  if text = "true".toList then some (.bool true)
  else if text = "false".toList then some (.bool false)
  else ((whole? text).or (decimal? text)).or (if isMoment text then some (.table []) else none)

end SnippetAudit.Toml
