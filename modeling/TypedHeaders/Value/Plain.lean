import TypedHeaders.HttpDate
import TypedHeaders.Value.Printed

/-! # Plain values

The text that a value contributes where it is not quoted: a text is itself, and a date has its
numeric form. Everything else is printed as in messages.
-/

namespace TypedHeaders

namespace CivilDate

def plain (date : CivilDate) : String :=
  String.ofList (HttpDate.padded 4 date.year ++ ['-'] ++ HttpDate.padded 2 date.month ++ ['-'] ++
    HttpDate.padded 2 date.day)

end CivilDate

/-- Two digits each for the hours and minutes of a span of microseconds, then for the seconds unless
`brief` and only zeros follow, then six for the microseconds unless zero. -/
def plainTime (brief : Bool) (micros : Nat) : String :=
  let seconds := micros / microsPerSecond
  let fraction := micros % microsPerSecond
  String.ofList (HttpDate.padded 2 (seconds / 3600) ++ [':'] ++
    HttpDate.padded 2 (seconds / 60 % 60) ++
    (if brief && seconds % 60 = 0 && fraction = 0 then []
     else ':' :: HttpDate.padded 2 (seconds % 60)) ++
    (if fraction = 0 then [] else '.' :: HttpDate.padded 6 fraction))

namespace Moment

def plain (moment : Moment) : String :=
  moment.date.plain ++ " " ++ plainTime false moment.clock.micros ++
    match moment.offset? with
    | none => ""
    | some offset =>
      (if offset.micros < 0 then "-" else "+") ++ plainTime true offset.micros.natAbs

end Moment

namespace Value

def plain : Value → String
  | .text s => s
  | .date day => day.plain
  | .moment when => when.plain
  | value => value.printed

end Value

end TypedHeaders
