import TypedHeaders.HttpDate
import TypedHeaders.Value.Bytes

/-! # Encoding values

Each codec has one way of writing a value that it can hold, and refuses every other value. A date is
written to the second in GMT, whatever zone it came in. A number of too many digits is not written,
whatever the range, and a refusal that would have to quote such a number fails for the same reason.
-/

namespace TypedHeaders.Codec

/-- The refusal of a value, which quotes it. -/
def refuse (value : Value) (cause : InvalidValue) : Except Error Octets :=
  value.printing (.error (.invalidValue cause))

/-- The field that holds a whole number of the range. Truth is no number. -/
def encodeInteger (codec : Codec) (range : IntegerRange) (value : Value) : Except Error Octets :=
  match value with
  | .integer n =>
    if range.contains n then value.printing (.ok (.ofAscii (numeral n)))
    else refuse value (.integerOutOfRange n codec.header)
  | value => refuse value (.notInteger value)

def encodeDate (value : Value) : Except Error Octets :=
  match value with
  | .moment when =>
    match HttpDate.write? when with
    | some text => .ok (.ofAscii text)
    | none => refuse value (.dateOutOfRange value)
  | value => refuse value (.notDate value)

/-- The field of an expiry date; one that has passed is written as a zero. -/
def encodeExpires (value : Value) : Except Error Octets :=
  match value with
  | .past => .ok (.ofPhrase "0")
  | .tagged .expiresDate when => encodeDate when
  | value => encodeDate value

/-- The field of a date or of a delay, each of which may come without its tag. -/
def encodeRetryAfter (value : Value) : Except Error Octets :=
  match value with
  | .tagged .retryDate when => encodeDate when
  | .tagged .retryDelay seconds => integer.encodeInteger wordRange seconds
  | .moment when => encodeDate (.moment when)
  | value => integer.encodeInteger wordRange value

def encode (codec : Codec) (value : Value) : Except Error Octets :=
  match codec.kind with
  | .abstract => .error .abstractCodec
  | .integer range => codec.encodeInteger range value
  | .date => encodeDate value
  | .expires => encodeExpires value
  | .retryAfter => encodeRetryAfter value

end TypedHeaders.Codec
