import TypedHeaders.Fault

/-! # Errors

The causes for which an operation fails, and the sentence that each of them is reported with.
Malformed field text is no error: it only decodes to nothing.
-/

namespace TypedHeaders

/-- Why a codec refuses a value. -/
inductive InvalidValue where
  | notInteger (value : Value)
  | integerOutOfRange (value : Int) (header : Option String)
  | notDate (value : Value)
  | dateOutOfRange (value : Value)
  | nameless (codec : Codec)

namespace InvalidValue

def headerText (header : Option String) : String := header.getD "None"

def message : InvalidValue → String
  | .notInteger value => "invalid integer specifier " ++ value.printed
  | .integerOutOfRange value header =>
    decimalText value ++ " out of range for " ++ headerText header
  | .notDate value => "invalid http-date specifier " ++ value.printed
  | .dateOutOfRange value => "http-date out of range " ++ value.printed
  | .nameless codec => codec.printed ++ " is a codec with no header name"

end InvalidValue

/-- The kinds of sequences that have positions. -/
inductive Sequence where
  | list
  | tuple
  | text
  | octets
  | buffer
deriving DecidableEq, Repr

namespace Sequence

def typeName : Sequence → String
  | .list => "list"
  | .tuple => "tuple"
  | .text => "str"
  | .octets => "bytes"
  | .buffer => "bytearray"

def noItem : Sequence → String
  | .text => "string index out of range"
  | .octets => "index out of range"
  | kind => kind.typeName ++ " index out of range"

def noIndex (type : String) : Sequence → String
  | .text => "string indices must be integers, not '" ++ type ++ "'"
  | .octets => "byte indices must be integers or slices, not " ++ type
  | kind => kind.typeName ++ " indices must be integers or slices, not " ++ type

def noJoin (type : String) : Sequence → String
  | .octets => "can't concat " ++ type ++ " to bytes"
  | .buffer => "can't concat " ++ type ++ " to bytearray"
  | kind => "can only concatenate " ++ kind.typeName ++ " (not \"" ++ type ++ "\") to " ++
      kind.typeName

end Sequence

/-- Why a position does not exist. -/
inductive Bounds where
  | reading (kind : Sequence)
  | writing
  | tooLarge

namespace Bounds

def message : Bounds → String
  | .reading kind => kind.noItem
  | .writing => "list assignment index out of range"
  | .tooLarge => "cannot fit 'int' into an index-sized integer"

end Bounds

/-- Why a value is of no use where it stands. Types are given by name. -/
inductive WrongType where
  | notIterable (type : String)
  | notUnpackable (type : String)
  | notBytes (type : String)
  | textForBytes
  | notWhole (type : String)
  | notHashable (type : String)
  | badIndex (kind : Sequence) (type : String)
  | badSliceBound
  | notAssignable (spaced : Bool)
  | notJoinable (kind : Sequence) (type : String)
  | notOrdered (operator left right : String)
  | zonedWithUnzoned
  | momentWithDay
  | notSized (type : String)
  | notSubscriptable (type : String)
  | noSum (left right : String)
  | bytesForText
  | bytesForPattern
  | noTextForPattern (type : String)
  | fixedTable (deletion : Bool)
  | notClass (type : String)

namespace WrongType

def message : WrongType → String
  | .notIterable type => quotedName type ++ " object is not iterable"
  | .notUnpackable type => "cannot unpack non-iterable " ++ type ++ " object"
  | .notBytes type => "cannot convert " ++ quotedName type ++ " object to bytes"
  | .textForBytes => "string argument without an encoding"
  | .notWhole type => quotedName type ++ " object cannot be interpreted as an integer"
  | .notHashable type => "unhashable type: " ++ quotedName type
  | .badIndex kind type => kind.noIndex type
  | .badSliceBound => "slice indices must be integers or None or have an __index__ method"
  | .notAssignable spaced =>
    if spaced then "must assign iterable to extended slice" else "can only assign an iterable"
  | .notJoinable kind type => kind.noJoin type
  | .notOrdered operator left right =>
    quotedName operator ++ " not supported between instances of " ++ quotedName left ++ " and " ++
      quotedName right
  | .zonedWithUnzoned => "can't compare offset-naive and offset-aware datetimes"
  | .momentWithDay => "can't compare datetime.datetime to datetime.date"
  | .notSized type => "object of type " ++ quotedName type ++ " has no len()"
  | .notSubscriptable type => quotedName type ++ " object is not subscriptable"
  | .noSum left right =>
    "unsupported operand type(s) for +: " ++ quotedName left ++ " and " ++ quotedName right
  | .bytesForText => "a bytes-like object is required, not 'str'"
  | .bytesForPattern => "cannot use a string pattern on a bytes-like object"
  | .noTextForPattern type => "expected string or bytes-like object, got " ++ quotedName type
  | .fixedTable deletion =>
    "'mappingproxy' object does not support item " ++
      if deletion then "deletion" else "assignment"
  | .notClass type => "__class__ must be set to a class, not " ++ quotedName type ++ " object"
where
  /-- A name between single marks, as it stands. -/
  quotedName (name : String) : String := "'" ++ name ++ "'"

end WrongType

/-- Why a value of the right type is still of no use. -/
inductive BadValue where
  | negativeCount
  | notByte
  | zeroStep
  | lengthMismatch (given wanted : Nat)
  | tooFewParts (given : Nat)
  | tooManyParts
  /-- A whole number that would show in a text and has too many digits for it. -/
  | tooManyDigits

namespace BadValue

def message : BadValue → String
  | .negativeCount => "negative count"
  | .notByte => "bytes must be in range(0, 256)"
  | .zeroStep => "slice step cannot be zero"
  | .lengthMismatch given wanted =>
    "attempt to assign sequence of size " ++ decimalText given ++ " to extended slice of size " ++
      decimalText wanted
  | .tooFewParts given =>
    "not enough values to unpack (expected 2, got " ++ decimalText given ++ ")"
  | .tooManyParts => "too many values to unpack (expected 2)"
  | .tooManyDigits =>
    "Exceeds the limit (" ++ decimalText digitLimit ++ " digits) for integer string conversion; " ++
      "use sys.set_int_max_str_digits() to increase the limit"

end BadValue

/-- Which limit a number passes. -/
inductive Overflow where
  | date
  | count

namespace Overflow

def message : Overflow → String
  | .date => "date value out of range"
  | .count => "cannot fit 'int' into an index-sized integer"

end Overflow

/-- Why an attribute cannot be used. -/
inductive NoAttribute where
  | ofObject (type name : String)
  | ofType (type name : String)
  | readOnly (type name : String)

namespace NoAttribute

def message : NoAttribute → String
  | .ofObject type name => "'" ++ type ++ "' object has no attribute '" ++ name ++ "'"
  | .ofType type name => "type object '" ++ type ++ "' has no attribute '" ++ name ++ "'"
  | .readOnly type name => "'" ++ type ++ "' object attribute '" ++ name ++ "' is read-only"

end NoAttribute

/-- Why an operation fails. -/
inductive Error where
  /-- A value that its header cannot hold. -/
  | invalidValue (cause : InvalidValue)
  /-- A fault of the system while a header was written. -/
  | notWritten (header : String) (cause : Fault)
  /-- Any other fault of a sink. -/
  | fault (cause : Fault)
  /-- A codec of no family was asked to read or write. -/
  | abstractCodec
  /-- A name that is not there, or no name at all where one is wanted. -/
  | missing (key : Option Value)
  | outOfBounds (cause : Bounds)
  | wrongType (cause : WrongType)
  | badValue (cause : BadValue)
  | overflow (cause : Overflow)
  | noAttribute (cause : NoAttribute)
  /-- Characters from `start` up to `stop` that ASCII does not have, of which `first` is the
  first. -/
  | notAscii (start stop : Nat) (first : Char)

namespace Error

def message : Error → String
  | .invalidValue cause => cause.message
  | .notWritten header cause => "could not write " ++ header ++ " header: " ++ cause.text
  | .fault cause => cause.text
  | .abstractCodec => ""
  | .missing key => (key.map Value.printed).getD ""
  | .outOfBounds cause => cause.message
  | .wrongType cause => cause.message
  | .badValue cause => cause.message
  | .overflow cause => cause.message
  | .noAttribute cause => cause.message
  | .notAscii start stop first =>
    "'ascii' codec can't encode character" ++
      (if stop = start + 1 then
        " '" ++ String.ofList (Text.escape first.toNat) ++ "' in position " ++ decimalText start
      else "s in position " ++ decimalText start ++ "-" ++ decimalText (stop - 1)) ++
      ": ordinal not in range(128)"

end Error

/-- What comes of an operation that prints the value, and so fails if the value cannot be printed. -/
def Value.printing {α : Type} (value : Value) (outcome : Except Error α) : Except Error α :=
  if value.isPrintable then outcome else .error (.badValue .tooManyDigits)

end TypedHeaders
