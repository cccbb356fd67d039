import SnippetAudit.Calendar.Instant
import SnippetAudit.Text.Blank
import SnippetAudit.Text.Digit

/-!
Instants read from text: a date, a letter `T` or a blank, a time of day, and the offset of that time
from universal time. Blanks may stand before every part, and a part may have fewer digits than
usual.
-/

namespace SnippetAudit.Instant

open Text

/-- A number of at least one digit and at most so many, and the text behind it. -/
def number? (most : Nat) (text : List Char) : Option (Nat × List Char) :=
  let digits := (text.take most).takeWhile isDigit
  if digits.isEmpty then none else some (numberOf 10 digits, text.drop digits.length)

def field? (text : List Char) : Option (Nat × List Char) :=
  number? 2 (trimStart text)

def mark? (mark : Char) (text : List Char) : Option (List Char) :=
  match trimStart text with
  | c :: rest => if c = mark then some rest else none
  | [] => none

/-- A year behind blanks: with a sign and any number of digits, or without one and four at most. -/
def year? (text : List Char) : Option (Int × List Char) :=
  match trimStart text with
  | '-' :: rest => (number? rest.length rest).map fun (year, rest) => (-(year : Int), rest)
  | '+' :: rest => (number? rest.length rest).map fun (year, rest) => ((year : Int), rest)
  | rest => (number? 4 rest).map fun (year, rest) => ((year : Int), rest)

def date? (text : List Char) : Option (Date × List Char) := do
  let (year, rest) ← year? text
  let (month, rest) ← field? (← mark? '-' rest)
  let (day, rest) ← field? (← mark? '-' rest)
  let date : Date := ⟨year, month, day⟩
  if date.isValid then some (date, rest) else none

/-- The nanoseconds in a fraction, if there is one. Digits past the ninth are dropped. -/
def fraction? : List Char → Option (Nat × List Char)
  | '.' :: rest =>
    let digits := rest.takeWhile isDigit
    if digits.isEmpty then none
    else
      let kept := digits.take 9
      some (numberOf 10 kept * Nat.pow 10 (9 - kept.length), rest.drop digits.length)
  | rest => some (0, rest)

/-- The seconds since midnight and the nanoseconds of a time of day. The sixtieth second is told by
the nanoseconds of the one before it. -/
def clock? (text : List Char) : Option ((Nat × Nat) × List Char) := do
  let (hour, rest) ← field? text
  let (minute, rest) ← field? (← mark? ':' rest)
  let (second, rest) ← field? (← mark? ':' rest)
  let (nanos, rest) ← fraction? rest
  if 23 < hour ∨ 59 < minute ∨ 60 < second then none
  else if second = 60 then some ((hour * 3600 + minute * 60 + 59, perSecond + nanos), rest)
  else some ((hour * 3600 + minute * 60 + second, nanos), rest)

def twoDigits? : List Char → Option (Nat × List Char)
  | a :: b :: rest => if isDigit a && isDigit b then some (numberOf 10 [a, b], rest) else none
  | _ => none

/-- Two letters that differ in case at most, the second being a capital of the basic alphabet. -/
def sameCapital (c capital : Char) : Bool :=
  c == capital || c.toNat == capital.toNat + 32

/-- The hours and the minutes of an offset, in seconds. Colons and blanks may stand between them. -/
def hoursAndMinutes? (text : List Char) : Option (Nat × List Char) := do
  let (hours, rest) ← twoDigits? text
  let (minutes, rest) ← twoDigits? (rest.dropWhile fun c => c = ':' || isBlank c)
  if 59 < minutes then none
  else if 86400 ≤ hours * 3600 + minutes * 60 then none
  else some (hours * 3600 + minutes * 60, rest)

/-- An offset in seconds: none for universal time, else with a sign. The minus sign may be the
typographic one. -/
def offset? (text : List Char) : Option (Int × List Char) :=
  match trimStart text with
  | [] => none
  | c :: rest =>
    if sameCapital c 'Z' then some (0, rest)
    else if sameCapital c 'U' then
      match rest with
      | d :: e :: rest => if sameCapital d 'T' && sameCapital e 'C' then some (0, rest) else none
      | _ => none
    else if c = '+' then (hoursAndMinutes? rest).map fun (size, rest) => ((size : Int), rest)
    else if c = '-' ∨ c.toNat = 0x2212 then
      (hoursAndMinutes? rest).map fun (size, rest) => (-(size : Int), rest)
    else none

/-- The first and the last year an instant may lie in, in its own offset and in universal time. -/
def years : Int × Int := (-262143, 262142)

def inYears (year : Int) : Bool :=
  years.1 ≤ year && year ≤ years.2

def ofText? (text : String) : Option Instant := do
  let (date, rest) ← date? text.toList
  match rest with
  | c :: rest =>
    if c = 't' ∨ c = 'T' ∨ c = ' ' then
      let ((second, nanos), rest) ← clock? rest
      let (offset, rest) ← offset? rest
      let instant : Instant := ⟨date.toDays * perDay + second - offset, nanos⟩
      if isBlankLine rest && inYears date.year && inYears instant.date.year then some instant
      else none
    else none
  | [] => none

end SnippetAudit.Instant
