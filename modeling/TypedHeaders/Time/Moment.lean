import TypedHeaders.Time.Calendar

/-! # Moments

A day with a time of day, either without a zone or at a fixed offset from UTC. Every moment lies at
an instant, counted in microseconds from the start of year 1; a moment without a zone is read as
UTC.
-/

namespace TypedHeaders

def microsPerSecond : Nat := 1000000

def microsPerDay : Nat := 86400 * microsPerSecond

/-- A time of day to the microsecond, without leap seconds. -/
structure Clock where
  hour : Nat
  minute : Nat
  second : Nat
  micro : Nat
  inRange : hour < 24 ∧ minute < 60 ∧ second < 60 ∧ micro < microsPerSecond
deriving DecidableEq, Repr

namespace Clock

def ofFields? (hour minute second micro : Nat) : Option Clock :=
  if inRange : hour < 24 ∧ minute < 60 ∧ second < 60 ∧ micro < microsPerSecond then
    some ⟨hour, minute, second, micro, inRange⟩
  else none

def micros (clock : Clock) : Nat :=
  ((clock.hour * 60 + clock.minute) * 60 + clock.second) * microsPerSecond + clock.micro

/-- The time of day at a number of microseconds from the start of the day. -/
def ofMicros? (micros : Nat) : Option Clock :=
  let seconds := micros / microsPerSecond
  ofFields? (seconds / 3600) (seconds / 60 % 60) (seconds % 60) (micros % microsPerSecond)

end Clock

/-- A fixed distance of local time from UTC, shorter than a day. -/
structure Offset where
  micros : Int
  inRange : -microsPerDay < micros ∧ micros < microsPerDay
deriving DecidableEq, Repr

namespace Offset

/-- The offset of so many microseconds, if they are fewer than a day's. -/
def ofMicros? (micros : Int) : Option Offset :=
  if inRange : -microsPerDay < micros ∧ micros < microsPerDay then some ⟨micros, inRange⟩ else none

def utc : Offset := ⟨0, by decide⟩

end Offset

/-- A day and a time, at a fixed offset or without a zone. -/
structure Moment where
  date : CivilDate
  clock : Clock
  offset? : Option Offset
deriving DecidableEq, Repr

namespace Moment

/-- The microseconds from the start of year 1 to the local reading. -/
def localMicros (moment : Moment) : Nat :=
  moment.date.ordinal * microsPerDay + moment.clock.micros

/-- The microseconds from the start of year 1 in UTC. -/
def instant (moment : Moment) : Int :=
  moment.localMicros - (moment.offset?.elim 0 Offset.micros)

/-- The moment in UTC at an instant, if the calendar reaches that far. -/
def ofInstant? (instant : Int) : Option Moment := do
  if instant < 0 then none
  let micros := instant.toNat
  let date ← CivilDate.ofOrdinal? (micros / microsPerDay)
  let clock ← Clock.ofMicros? (micros % microsPerDay)
  pure ⟨date, clock, some .utc⟩

/-- The same instant read in UTC, if it lies in the calendar. A moment without a zone already is
such a reading. -/
def toUtc? (moment : Moment) : Option Moment :=
  match moment.offset? with
  | none => some moment
  | some _ => ofInstant? moment.instant

end Moment

end TypedHeaders
