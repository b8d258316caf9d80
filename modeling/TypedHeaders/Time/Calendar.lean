/-! # The civil calendar

The proleptic Gregorian calendar from the first day of year 1 to the last day of year 9999, its day
numbers, and its days of the week.
-/

namespace TypedHeaders

/-- Every fourth year is a leap year, save the centuries that 400 does not divide. -/
def isLeapYear (year : Nat) : Bool :=
  year % 4 = 0 && (year % 100 ≠ 0 || year % 400 = 0)

def monthLengths (year : Nat) : List Nat :=
  [31, if isLeapYear year then 29 else 28, 31, 30, 31, 30, 31, 31, 30, 31, 30, 31]

/-- The length of a month counted from one, and zero outside the year. -/
def daysInMonth (year month : Nat) : Nat :=
  if month = 0 then 0 else (monthLengths year).getD (month - 1) 0

/-- The days of a year that precede a month. -/
def daysBeforeMonth (year month : Nat) : Nat :=
  ((monthLengths year).take (month - 1)).foldr (· + ·) 0

/-- The days that precede a year, counted from the first day of year 1. -/
def daysBeforeYear (year : Nat) : Nat :=
  let past := year - 1
  past * 365 + past / 4 - past / 100 + past / 400

/-- The fields that name a real day. -/
def IsCivil (year month day : Nat) : Prop :=
  1 ≤ year ∧ year ≤ 9999 ∧ 1 ≤ month ∧ month ≤ 12 ∧ 1 ≤ day ∧ day ≤ daysInMonth year month

instance (year month day : Nat) : Decidable (IsCivil year month day) := by
  unfold IsCivil; infer_instance

/-- A real day of the calendar. -/
structure CivilDate where
  year : Nat
  month : Nat
  day : Nat
  isCivil : IsCivil year month day
deriving DecidableEq, Repr

namespace CivilDate

def ofFields? (year month day : Nat) : Option CivilDate :=
  if civil : IsCivil year month day then some ⟨year, month, day, civil⟩ else none

/-- The position of a day in the calendar, with zero for the first day of year 1. -/
def ordinal (date : CivilDate) : Nat :=
  daysBeforeYear date.year + daysBeforeMonth date.year date.month + (date.day - 1)

/-- The year that holds a position of the calendar, and the days of it that precede. The last day
of a leap year ends a cycle early, which is why the quotients are capped. -/
def yearOfOrdinal (ordinal : Nat) : Nat × Nat :=
  let era := ordinal / 146097
  let inEra := ordinal % 146097
  let century := min (inEra / 36524) 3
  let inCentury := inEra - century * 36524
  let cycle := inCentury / 1461
  let inCycle := inCentury % 1461
  let year := min (inCycle / 365) 3
  (era * 400 + century * 100 + cycle * 4 + year + 1, inCycle - year * 365)

/-- The month that holds a day of the year, and the days of it that precede, when `month` is the
first of the months with the given lengths. -/
def monthOfDay (month day : Nat) : List Nat → Nat × Nat
  | [] => (month, day)
  | length :: rest =>
    if day < length then (month, day) else monthOfDay (month + 1) (day - length) rest

/-- The day at a position of the calendar, if the calendar reaches that far. -/
def ofOrdinal? (ordinal : Nat) : Option CivilDate :=
  let (year, dayOfYear) := yearOfOrdinal ordinal
  let (month, dayOfMonth) := monthOfDay 1 dayOfYear (monthLengths year)
  ofFields? year month (dayOfMonth + 1)

end CivilDate

def weekdayNames : List String :=
  ["Monday", "Tuesday", "Wednesday", "Thursday", "Friday", "Saturday", "Sunday"]

def monthNames : List String :=
  ["January", "February", "March", "April", "May", "June", "July", "August", "September",
   "October", "November", "December"]

def abbreviation (name : String) : List Char := name.toList.take 3

namespace CivilDate

/-- The day of the week, with zero for Monday. The first day of year 1 is a Monday. -/
def weekday (date : CivilDate) : Nat := date.ordinal % 7

def weekdayText (date : CivilDate) : List Char := abbreviation (weekdayNames.getD date.weekday "")

def monthText (date : CivilDate) : List Char := abbreviation (monthNames.getD (date.month - 1) "")

end CivilDate

end TypedHeaders
