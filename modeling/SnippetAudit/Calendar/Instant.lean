import SnippetAudit.Calendar.Date

/-!
Instants of universal time, to the nanosecond, as they are written: with a date, a time of day and a
`Z`.
-/

namespace SnippetAudit

/-- An instant: the seconds since the start of 1970 and the nanoseconds since that second began.
In a leap second these count on past a second's end. -/
structure Instant where
  seconds : Int
  nanos : Nat
deriving DecidableEq, Repr, Inhabited

/-- A number with zeros in front, up to a number of digits. -/
def padded (width n : Nat) : String :=
  let digits := Nat.toDigits 10 n
  String.ofList (List.replicate (width - digits.length) '0' ++ digits)

namespace Instant

def perSecond : Nat := 1000000000

def perDay : Int := 86400

def date (instant : Instant) : Date :=
  Date.ofDays (instant.seconds / perDay)

/-- The hour, the minute and the second of an instant. The second of a leap second is sixty. -/
def clock (instant : Instant) : Nat × Nat × Nat :=
  let second := (instant.seconds % perDay).toNat
  (second / 3600, second / 60 % 60, second % 60 + instant.nanos / perSecond)

/-- The nanoseconds since the start of 1970, if 64 bits with a sign hold them, and else zero. -/
def nanoCount (instant : Instant) : Int :=
  let count := instant.seconds * perSecond + instant.nanos
  if -(Nat.pow 2 63) ≤ count ∧ count < Nat.pow 2 63 then count else 0

/-- A year with four digits; one before year zero or with more digits has a sign. -/
def yearText (year : Int) : String :=
  if 0 ≤ year ∧ year ≤ 9999 then padded 4 year.toNat
  else (if year < 0 then "-" else "+") ++ padded 4 year.natAbs

def dateText (date : Date) : String :=
  yearText date.year ++ "-" ++ padded 2 date.month ++ "-" ++ padded 2 date.day

def clockText (instant : Instant) : String :=
  let (hour, minute, second) := instant.clock
  padded 2 hour ++ ":" ++ padded 2 minute ++ ":" ++ padded 2 second

/-- The part of a second behind the point: none, or in thousandths, millionths or billionths,
whichever is the shortest that is exact. -/
def fractionText (instant : Instant) : String :=
  let nanos := instant.nanos % perSecond
  if nanos = 0 then ""
  else if nanos % 1000000 = 0 then "." ++ padded 3 (nanos / 1000000)
  else if nanos % 1000 = 0 then "." ++ padded 6 (nanos / 1000)
  else "." ++ padded 9 nanos

def text (instant : Instant) : String :=
  dateText instant.date ++ "T" ++ instant.clockText ++ instant.fractionText ++ "Z"

def shown (instant : Instant) : String :=
  dateText instant.date ++ " " ++ instant.clockText

end Instant

end SnippetAudit
