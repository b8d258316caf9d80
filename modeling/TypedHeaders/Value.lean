import TypedHeaders.Codec
import TypedHeaders.Floating
import TypedHeaders.Octets
import TypedHeaders.Time.Moment

/-! # Values

What a caller may hand to a codec or store under a name. Codecs produce only whole numbers, moments,
the mark of an expired date, and the tagged variants; every other shape is there because a codec has
to refuse it and say what it was.
-/

namespace TypedHeaders

/-- The tags that keep the meanings of a decoded date or delay apart. -/
inductive Tag where
  /-- The date after which a response is stale. -/
  | expiresDate
  /-- The date at which to try again. -/
  | retryDate
  /-- The seconds after which to try again. -/
  | retryDelay
deriving DecidableEq, Repr

namespace Tag

def name : Tag → String
  | .expiresDate => "ExpiresDate"
  | .retryDate => "DateRA"
  | .retryDelay => "DeltaRA"

/-- The name of the one thing that a tagged value holds. -/
def content : Tag → String
  | .expiresDate => "date"
  | .retryDate => "date"
  | .retryDelay => "seconds"

end Tag

/-- Anything that can be offered as the value or as a raw field of a header. -/
inductive Value where
  | null
  | boolean (b : Bool)
  | integer (n : Int)
  | floating (x : Floating)
  | text (s : String)
  /-- Immutable bytes, which is what fields are stored as. -/
  | octets (data : Octets)
  /-- Bytes in a buffer that its owner may still change. -/
  | buffer (data : Octets)
  | list (items : List Value)
  | tuple (items : List Value)
  /-- Keys with their values, in the order in which the keys were first put in. -/
  | mapping (entries : List (Value × Value))
  | date (day : CivilDate)
  | moment (when : Moment)
  /-- An expiry date that is present but no date, so that the response is stale already. -/
  | past
  /-- Some other named mark. -/
  | marker (identity : Identity) (name : Value)
  | tagged (tag : Tag) (content : Value)
  | codec (c : Codec)
  /-- Values that can be taken out only once, one after the other. -/
  | stream (identity : Identity) (items : List Value)
  /-- Bounds and step of a selection from a sequence. -/
  | slice (start stop step : Value)

namespace Value

instance : Inhabited Value := ⟨.null⟩

def typeName : Value → String
  | .null => "NoneType"
  | .boolean _ => "bool"
  | .integer _ => "int"
  | .floating _ => "float"
  | .text _ => "str"
  | .octets _ => "bytes"
  | .buffer _ => "bytearray"
  | .list _ => "list"
  | .tuple _ => "tuple"
  | .mapping _ => "dict"
  | .date _ => "datetime.date"
  | .moment _ => "datetime.datetime"
  | .past | .marker .. => "const"
  | .tagged tag _ => tag.name
  | .codec c => c.className
  | .stream .. => "list_iterator"
  | .slice .. => "slice"

def ofByte (b : UInt8) : Value := .integer b.toNat

def ofChar (c : Char) : Value := .text (String.singleton c)

/-- What a value yields when it is gone through, if it can be. -/
def items? : Value → Option (List Value)
  | .text s => some (s.toList.map ofChar)
  | .octets data | .buffer data => some (data.map ofByte)
  | .list items | .tuple items | .stream _ items => some items
  | .mapping entries => some (entries.map Prod.fst)
  | .tagged _ content => some [content]
  | _ => none

/-- What is left of a value once it has been gone through. -/
def gone : Value → Value
  | .stream identity _ => .stream identity []
  | value => value

/-- The whole number that a value is, where truth counts as one. -/
def whole? : Value → Option Int
  | .integer n => some n
  | .boolean b => some b.toNat
  | _ => none

/-- The number that a value is, on the extended line. -/
def number? : Value → Option Extended
  | .integer n => some (.ofInt n)
  | .boolean b => some (.ofInt b.toNat)
  | .floating x => some x.value
  | _ => none

end Value

end TypedHeaders
