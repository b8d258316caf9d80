import TypedHeaders.Text.Quoted
import TypedHeaders.Value

/-! # Printed values

The text that stands for a value inside a message. It shows the type as well as the content, so that
the text `5`, the number 5 and the byte of that digit print differently. A value cannot be printed if
a whole number of too many digits would show in it.
-/

namespace TypedHeaders

def commaSeparated (texts : List String) : String := ", ".intercalate texts

def quotedText (s : String) : String := String.ofList (Text.quoted s.toList)

def decimalText (n : Int) : String := String.ofList (numeral n)

namespace Offset

/-- The nonzero parts of an offset in whole days, seconds and microseconds, of which only the days
may be negative. -/
def parts (offset : Offset) : List String :=
  let days := offset.micros.fdiv microsPerDay
  let inDay := (offset.micros.fmod microsPerDay).toNat
  [("days", days), ("seconds", inDay / microsPerSecond), ("microseconds", inDay % microsPerSecond)]
    |>.filterMap fun (name, n) => if n = 0 then none else some (name ++ "=" ++ decimalText n)

def printed (offset : Offset) : String :=
  if offset.micros = 0 then "datetime.timezone.utc"
  else "datetime.timezone(datetime.timedelta(" ++ commaSeparated offset.parts ++ "))"

end Offset

namespace CivilDate

def printed (date : CivilDate) : String :=
  "datetime.date(" ++
    commaSeparated ([date.year, date.month, date.day].map fun n : Nat => decimalText n) ++ ")"

end CivilDate

namespace Moment

def printed (moment : Moment) : String :=
  let clock := moment.clock
  let tail :=
    if clock.micro ≠ 0 then [clock.second, clock.micro]
    else if clock.second ≠ 0 then [clock.second]
    else []
  let fields :=
    [moment.date.year, moment.date.month, moment.date.day, clock.hour, clock.minute] ++ tail
  let zone := (moment.offset?.map fun offset => "tzinfo=" ++ offset.printed).toList
  "datetime.datetime(" ++ commaSeparated (fields.map (fun n : Nat => decimalText n) ++ zone) ++ ")"

end Moment

namespace Codec

def printed (codec : Codec) : String :=
  "<" ++ codec.className ++ " " ++ codec.header.elim "None" quotedText ++ ">"

end Codec

namespace Value

def printedMark (name : String) : String := "<const " ++ name ++ ">"

/-- Printed items between round brackets, where a single one is followed by a comma. -/
def printedTuple : List String → String
  | [item] => "(" ++ item ++ ",)"
  | items => "(" ++ commaSeparated items ++ ")"

mutual

def printed : Value → String
  | .null => "None"
  | .boolean b => if b then "True" else "False"
  | .integer n => decimalText n
  | .floating x => x.text
  | .text s => quotedText s
  | .octets data => String.ofList (Text.quotedOctets data)
  | .buffer data => "bytearray(" ++ String.ofList (Text.quotedBuffer data) ++ ")"
  | .list items => "[" ++ commaSeparated (printedItems items) ++ "]"
  | .tuple items => printedTuple (printedItems items)
  | .mapping entries => "\x7b" ++ commaSeparated (printedEntries entries) ++ "\x7d"
  | .date day => day.printed
  | .moment when => when.printed
  | .past => printedMark (quotedText "PAST")
  | .marker _ name => printedMark name.printed
  | .tagged tag content => tag.name ++ "(" ++ tag.content ++ "=" ++ content.printed ++ ")"
  | .codec c => c.printed
  | .stream .. => "<list_iterator object>"
  | .slice start stop step =>
    "slice(" ++ commaSeparated [start.printed, stop.printed, step.printed] ++ ")"

def printedItems : List Value → List String
  | [] => []
  | item :: rest => item.printed :: printedItems rest

def printedEntries : List (Value × Value) → List String
  | [] => []
  | (key, value) :: rest => (key.printed ++ ": " ++ value.printed) :: printedEntries rest

end

mutual

/-- Whether the value can be printed: no whole number that shows in it has too many digits. -/
def isPrintable : Value → Bool
  | .integer n => digitCount n ≤ digitLimit
  | .list items | .tuple items => arePrintable items
  | .mapping entries => areEntriesPrintable entries
  | .marker _ name => name.isPrintable
  | .tagged _ content => content.isPrintable
  | .slice start stop step => start.isPrintable && stop.isPrintable && step.isPrintable
  | _ => true

def arePrintable : List Value → Bool
  | [] => true
  | item :: rest => item.isPrintable && arePrintable rest

def areEntriesPrintable : List (Value × Value) → Bool
  | [] => true
  | (key, value) :: rest =>
    key.isPrintable && value.isPrintable && areEntriesPrintable rest

end

end Value

end TypedHeaders
