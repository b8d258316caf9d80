import TypedHeaders.Identity
import TypedHeaders.Numeral

/-! # Header codecs

A codec tells how the value of a header is written, and a codec with a name is the identity of that
header. There are four families: whole numbers, dates, the expiry date, and the retry delay; a codec
of no family is abstract and only stands for its name.
-/

namespace TypedHeaders

/-- What the value of a field is. -/
inductive Kind where
  | abstract
  | integer (range : IntegerRange)
  | date
  | expires
  | retryAfter
deriving DecidableEq, Repr

namespace Kind

/-- The names of the family and of the wider families around it, nearest first. -/
def families : Kind → List String
  | .abstract => ["HeaderField"]
  | .integer _ => ["IntegerHeaderField", "HeaderField"]
  | .date => ["DateHeaderField", "HeaderField"]
  | .expires => ["ExpiresHeaderField", "DateHeaderField", "HeaderField"]
  | .retryAfter => ["RetryAfterHeaderField", "HeaderField"]

/-- The features that every codec of the family has, and that cannot be reassigned. -/
def features : Kind → List String
  | .integer _ => shared ++ ["signed", "bits", "value_range"]
  | _ => shared
where
  /-- The features that codecs of all families have, and those that stand behind any value. -/
  shared : List String :=
    ["header", "value_decode", "value_encode", "parse_header", "fmt_header",
     "__get__", "__set__", "__delete__", "__repr__", "__str__", "__format__", "__doc__",
     "__module__", "__slots__", "__new__", "__init__", "__init_subclass__", "__subclasshook__",
     "__getattribute__", "__setattr__", "__delattr__", "__dir__", "__sizeof__", "__hash__",
     "__eq__", "__ne__", "__lt__", "__le__", "__gt__", "__ge__",
     "__getstate__", "__reduce__", "__reduce_ex__"]

end Kind

/-- How one header is written, and under which name. -/
structure Codec where
  kind : Kind
  /-- The lower case name of the header, if the codec belongs to one. -/
  header : Option String
  /-- The name of the codec's own class, where it is not just one of its family. -/
  label : Option String
  /-- The name of the shared codec that this is, if it is one. -/
  constant : Option String
  /-- What tells the codec from others of the same description. -/
  identity : Identity
deriving DecidableEq, Repr

namespace Codec

/-- The names of the codec's classes, nearest first. -/
def classes (codec : Codec) : List String := codec.label.toList ++ codec.kind.families

def className (codec : Codec) : String := codec.classes.headD ""

/-- A codec of its own, of a class with the name `label`. -/
def custom (identity : Identity) (kind : Kind) (label : String) (header : Option String) : Codec :=
  ⟨kind, header, some label, none, identity⟩

/-- The deep copy of a codec, which is no longer the shared one. -/
def renewed (place : Nat) (codec : Codec) : Codec :=
  { codec with constant := none, identity := codec.identity.copied place }

/-- Whole numbers from zero to the greatest that a signed word of 64 bits holds. -/
def wordRange : IntegerRange := ⟨false, 63⟩

def abstract : Codec := ⟨.abstract, none, none, none, .shared⟩

/-- Whole numbers that belong to no header; delays in seconds are written like this too. -/
def integer : Codec := ⟨.integer wordRange, none, none, some "INTEGER", .shared⟩

def signedInteger : Codec :=
  ⟨.integer ⟨true, 63⟩, none, some "SignedIntegerHeaderField", some "SIGNED_INTEGER", .shared⟩

def httpDate : Codec := ⟨.date, none, none, some "HTTP_DATE", .shared⟩

def date : Codec := ⟨.date, some "date", some "Date", some "DATE", .shared⟩

/-- The condition that the resource changed since a date. -/
def ifModifiedSince : Codec :=
  ⟨.date, some "if-modified-since", some "IfModifiedSince", some "IF_MODIFIED_SINCE", .shared⟩

/-- The condition that the resource did not change since a date. -/
def ifUnmodifiedSince : Codec :=
  ⟨.date, some "if-unmodified-since", some "IfUnmodifiedSince", some "IF_UNMODIFIED_SINCE", .shared⟩

def maxForwards : Codec :=
  ⟨.integer wordRange, some "max-forwards", some "MaxForwards", some "MAX_FORWARDS", .shared⟩

def age : Codec := ⟨.integer wordRange, some "age", some "Age", some "AGE", .shared⟩

def retryAfter : Codec :=
  ⟨.retryAfter, some "retry-after", some "RetryAfter", some "RETRY_AFTER", .shared⟩

def contentLength : Codec :=
  ⟨.integer wordRange, some "content-length", some "ContentLength", some "CONTENT_LENGTH", .shared⟩

def expires : Codec := ⟨.expires, some "expires", some "Expires", some "EXPIRES", .shared⟩

def lastModified : Codec :=
  ⟨.date, some "last-modified", some "LastModified", some "LAST_MODIFIED", .shared⟩

/-- The codecs of the headers that are known by name, general headers first, then those of
requests, responses and entities. -/
def named : List Codec :=
  [date, ifModifiedSince, ifUnmodifiedSince, maxForwards, age, retryAfter, contentLength, expires,
   lastModified]

/-- The codecs that have a name of their own to be shared by. -/
def shared : List Codec := [integer, signedInteger, httpDate] ++ named

/-- The shared codec of this name. Delays in seconds share the codec of whole numbers. -/
def ofConstant? (name : String) : Option Codec :=
  if name = "DELTA_SECONDS" then some integer
  else shared.find? fun codec => codec.constant = some name

/-- The codec of the header with this lower case name. -/
def ofHeader? (name : String) : Option Codec :=
  named.find? fun codec => codec.header = some name

end Codec

end TypedHeaders
