import TypedHeaders.HttpDate
import TypedHeaders.Error

/-! # Dates as values

Reading a date from any value and writing any value as a date, where only text can be read and only
a moment can be written.
-/

namespace TypedHeaders.HttpDate

/-- The moment that a value names, or nothing. -/
def ofValue (pivot : Nat) (value : Value) : Except Error Value :=
  match value with
  | .text s => .ok (((read? pivot s.toList).map .moment).getD .null)
  | .octets _ | .buffer _ => .error (.wrongType .bytesForPattern)
  | value => .error (.wrongType (.noTextForPattern value.typeName))

def textOf (value : Value) : Except Error String :=
  match value with
  | .moment when =>
    match write? when with
    | some text => .ok (String.ofList text)
    | none => .error (.overflow .date)
  | value => .error (.noAttribute (.ofObject value.typeName "tzinfo"))

end TypedHeaders.HttpDate
