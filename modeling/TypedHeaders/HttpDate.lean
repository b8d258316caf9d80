import TypedHeaders.HttpDate.Grammar
import TypedHeaders.Time.Moment

/-! # HTTP dates

Reading takes any of the accepted forms; writing always gives the form of RFC 1123 in GMT. Both go
through the instant, so a date that is read and written again names the same second.
-/

namespace TypedHeaders.HttpDate

/-- Two-digit years from this one on belong to the 1900s. -/
def defaultPivot : Nat := 69

/-- The moment in UTC that the written fields name, if they name a real one. -/
def Written.moment? (written : Written) : Option Moment := do
  let date ← CivilDate.ofFields? written.year written.month written.day
  let clock ← Clock.ofFields? written.hour written.minute written.second 0
  let offset ← Offset.ofMicros? (written.ahead * 60 * microsPerSecond)
  Moment.toUtc? ⟨date, clock, some offset⟩

/-- The moment that a text names when the given forms are tried in order. -/
def readIn? (pivot : Nat) (forms : List Form) (text : List Char) : Option Moment :=
  forms.findSome? fun form => (form.read? pivot text).bind Written.moment?

/-- The moment in UTC that a text names in one of the accepted forms. -/
def read? (pivot : Nat) (text : List Char) : Option Moment := readIn? pivot Form.all text

def padded (width n : Nat) : List Char :=
  let digits := Nat.toDigits 10 n
  List.replicate (width - digits.length) '0' ++ digits

/-- The form of RFC 1123 for the fields of a moment, which are taken to be in UTC. -/
def written (moment : Moment) : List Char :=
  moment.date.weekdayText ++ [',', ' '] ++ padded 2 moment.date.day ++ [' '] ++
    moment.date.monthText ++ [' '] ++ padded 4 moment.date.year ++ [' '] ++
    padded 2 moment.clock.hour ++ [':'] ++ padded 2 moment.clock.minute ++ [':'] ++
    padded 2 moment.clock.second ++ [' ', 'G', 'M', 'T']

/-- The text of a moment to the second, if its reading in UTC lies in the calendar. -/
def write? (moment : Moment) : Option (List Char) := moment.toUtc?.map written

end TypedHeaders.HttpDate
