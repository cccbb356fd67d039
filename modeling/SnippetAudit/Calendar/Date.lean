/-!
Dates of the Gregorian calendar, carried back before its introduction and before year one, and their
distance in days.
-/

namespace SnippetAudit

/-- A day of a month of a year. Year zero comes before year one. -/
structure Date where
  year : Int
  month : Nat
  day : Nat
deriving DecidableEq, Repr, Inhabited

namespace Date

/-- Every fourth year is a leap year, but of the hundreds only every fourth. -/
def isLeap (year : Int) : Bool :=
  year % 4 = 0 && (year % 100 ≠ 0 || year % 400 = 0)

def monthLengths (year : Int) : List Nat :=
  [31, if isLeap year then 29 else 28, 31, 30, 31, 30, 31, 31, 30, 31, 30, 31]

/-- How many days a month has; there are none in a month that is not one. -/
def monthLength (year : Int) (month : Nat) : Nat :=
  if month = 0 then 0 else (monthLengths year)[month - 1]?.getD 0

def isValid (date : Date) : Bool :=
  1 ≤ date.day && date.day ≤ monthLength date.year date.month

/-- The days from the first of year one to the first of a year. -/
def daysBefore (year : Int) : Int :=
  let past := year - 1
  365 * past + past / 4 - past / 100 + past / 400

/-- The days from the first of year one to the first of 1970. -/
def epoch : Int :=
  daysBefore 1970

/-- The days of a year before the first of a month. -/
def daysBeforeMonth (year : Int) (month : Nat) : Nat :=
  ((monthLengths year).take (month - 1)).foldl (· + ·) 0

def toDays (date : Date) : Int :=
  daysBefore date.year - epoch + (daysBeforeMonth date.year date.month + (date.day - 1) : Nat)

/-- The month and the day of the month that lie a number of days after the first of `month`, where
`lengths` are those of that month and the ones after it. -/
def monthAndDay (month days : Nat) : List Nat → Nat × Nat
  | [] => (month, days + 1)
  | length :: later =>
    if days < length then (month, days + 1) else monthAndDay (month + 1) (days - length) later

/-- The date that lies a number of days after the first of 1970. Four hundred years have 146097
days, a hundred of them 36524 or one more, four of them 1461 or one less. -/
def ofDays (days : Int) : Date :=
  let since := days + epoch
  let inEra := (since % 146097).toNat
  let century := min 3 (inEra / 36524)
  let inCentury := inEra - century * 36524
  let inFour := inCentury % 1461
  let single := min 3 (inFour / 365)
  let year := 400 * (since / 146097) + 100 * century + 4 * (inCentury / 1461 : Nat) + single + 1
  let (month, day) := monthAndDay 1 (inFour - single * 365) (monthLengths year)
  ⟨year, month, day⟩

end Date

end SnippetAudit
