import TypedHeaders.HttpDate
import TypedHeaders.Value.Bytes

/-! # Decoding fields

A header of these families has one field. Text that the codec cannot read decodes to nothing, save
that an unreadable expiry date means that the response has expired. The refusals are kept as
records, so that a log can tell why nothing came out.
-/

namespace TypedHeaders

/-- What is wrong with a raw field, or with their number. -/
inductive Notice where
  | fieldCount (count : Nat)
  | notInteger (field : Value)
  | outOfRange (field : Value)
  | notDate (field : Value)
  | takenAsExpired (field : Value)
  | neitherDateNorDelay (field : Value)

inductive Level where
  | debug
  | info
  | warning
  | error
deriving DecidableEq, Repr

namespace Level

def name : Level → String
  | .debug => "DEBUG"
  | .info => "INFO"
  | .warning => "WARNING"
  | .error => "ERROR"

end Level

/-- A notice about the fields of a header, which has a name only if its codec has one. -/
structure Record where
  level : Level
  header : Option String
  notice : Notice

namespace Record

def message (record : Record) : String :=
  record.header.getD "None" ++ ": " ++
    match record.notice with
    | .fieldCount count => "expected one field, got " ++ decimalText count
    | .notInteger field => "not an integer: " ++ field.printed
    | .outOfRange field => "out of range: " ++ field.printed
    | .notDate field => "not an HTTP-date: " ++ field.printed
    | .takenAsExpired field => field.printed ++ " taken as already expired"
    | .neitherDateNorDelay field => "neither date nor delta-seconds: " ++ field.printed

end Record

/-- What came out of a field, if anything did, and what was noticed on the way. -/
structure Reading where
  value : Option Value
  log : List Record

namespace Codec

/-- A record of what a codec noticed. Anybody may send a field that cannot be read, so this is of
interest only in the search for a fault. -/
def note (codec : Codec) (notice : Notice) : Record := ⟨.debug, codec.header, notice⟩

/-- The number that a field holds. A numeral that is too long to be read is passed over in
silence. -/
def decodeInteger (codec : Codec) (range : IntegerRange) (field : Value) : Except Error Reading :=
  field.fieldText.map fun text? =>
    match text? with
    | none => ⟨none, [codec.note (.notInteger field)]⟩
    | some text =>
      match range.read text.toList with
      | .ok n => ⟨some (.integer n), []⟩
      | .error .notNumeral => ⟨none, [codec.note (.notInteger field)]⟩
      | .error .tooLong => ⟨none, []⟩
      | .error .outOfRange => ⟨none, [codec.note (.outOfRange field)]⟩

def decodeDate (codec : Codec) (field : Value) : Except Error Reading :=
  field.fieldText.map fun text? =>
    match text?.bind fun text => HttpDate.read? HttpDate.defaultPivot text.toList with
    | some when => ⟨some (.moment when), []⟩
    | none => ⟨none, [codec.note (.notDate field)]⟩

/-- The expiry date that a field names, or the mark of one that has passed. -/
def decodeExpires (codec : Codec) (field : Value) : Except Error Reading :=
  (codec.decodeDate field).map fun reading =>
    match reading.value with
    | some when => ⟨some (.tagged .expiresDate when), reading.log⟩
    | none => ⟨some .past, reading.log ++ [codec.note (.takenAsExpired field)]⟩

/-- The date or the delay that a field names; a date is looked for first. -/
def decodeRetryAfter (codec : Codec) (field : Value) : Except Error Reading := do
  let reading ← httpDate.decodeDate field
  match reading.value with
  | some when => pure ⟨some (.tagged .retryDate when), reading.log⟩
  | none =>
    let delay ← integer.decodeInteger wordRange field.gone
    match delay.value with
    | some seconds => pure ⟨some (.tagged .retryDelay seconds), reading.log ++ delay.log⟩
    | none =>
      pure ⟨none, reading.log ++ delay.log ++ [codec.note (.neitherDateNorDelay field)]⟩

/-- What a field holds according to a codec. -/
def decode (codec : Codec) (field : Value) : Except Error Reading :=
  match codec.kind with
  | .abstract => .error .abstractCodec
  | .integer range => codec.decodeInteger range field
  | .date => codec.decodeDate field
  | .expires => codec.decodeExpires field
  | .retryAfter => codec.decodeRetryAfter field

/-- What the fields of a header hold, where only a single field that is there at all can hold
anything. -/
def decodeFields (codec : Codec) (fields : List Value) : Except Error Reading :=
  match fields with
  | [.null] => .ok ⟨none, [codec.note (.fieldCount 1)]⟩
  | [field] => codec.decode field
  | fields => .ok ⟨none, [codec.note (.fieldCount fields.length)]⟩

/-- What a header holds whose fields are found by going through `raw`. -/
def decodeRaw (codec : Codec) (raw : Value) : Except Error Reading :=
  raw.iterate.bind codec.decodeFields

end Codec

end TypedHeaders
