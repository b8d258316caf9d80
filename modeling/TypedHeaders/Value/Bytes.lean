import TypedHeaders.Error
import TypedHeaders.Text.Utf8

/-! # Values as fields

A raw field ought to be bytes, but whatever can be turned into bytes or gone through is taken. Text
is taken as it is and never turned into bytes.
-/

namespace TypedHeaders

/-- Numbers from here on cannot count anything. -/
def countLimit : Nat := Nat.pow 2 63

namespace Value

/-- What a value yields when it is gone through. -/
def iterate (value : Value) : Except Error (List Value) :=
  match value.items? with
  | some items => .ok items
  | none => .error (.wrongType (.notIterable value.typeName))

def byte (value : Value) : Except Error UInt8 :=
  match value.whole? with
  | some n => if 0 ≤ n ∧ n < 256 then .ok (UInt8.ofNat n.toNat) else .error (.badValue .notByte)
  | none => .error (.wrongType (.notWhole value.typeName))

/-- The bytes that stand for a value. A count gives so many zeros. -/
def bytes (value : Value) : Except Error Octets :=
  match value with
  | .octets data | .buffer data => .ok data
  | .text _ => .error (.wrongType .textForBytes)
  | value =>
    match value.whole?, value.items? with
    | some n, _ =>
      if n < -countLimit ∨ countLimit ≤ n then .error (.overflow .count)
      else if n < 0 then .error (.badValue .negativeCount)
      else .ok (List.replicate n.toNat 0)
    | none, some items => items.mapM byte
    | none, none => .error (.wrongType (.notBytes value.typeName))

/-- The text of a raw field, if its bytes are UTF-8. -/
def fieldText (value : Value) : Except Error (Option String) :=
  match value with
  | .text s => .ok (some s)
  | value => value.bytes.map fun data => (Text.Utf8.decode? data).map String.ofList

def single? : List Value → Option Value
  | [field] => some field
  | _ => none

/-- The only thing that a value yields when it is gone through, if there is exactly one. -/
def onlyField (raw : Value) : Except Error Value :=
  raw.iterate.map fun fields => (single? fields).getD .null

end Value

end TypedHeaders
