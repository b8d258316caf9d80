import TypedHeaders.Error
import TypedHeaders.Value.Digest

/-! # The table of known headers

The codecs of the known headers by name. The table is fixed: it can be searched but not changed.
-/

namespace TypedHeaders.Codec.Table

/-- The known headers with their codecs, in the order of the table. -/
def entries : List (String × Codec) :=
  named.map fun codec => (codec.header.getD "", codec)

def names : List String := entries.map Prod.fst

def toMapping : Value := .mapping (entries.map fun entry => (.text entry.1, .codec entry.2))

/-- The codec under a key, if there is one. Only text in lower case is a key of the table. -/
def find (key : Value) : Except Error (Option Codec) :=
  key.hashed.map fun _ =>
    match key with
    | .text s => ofHeader? s
    | _ => none

def get (key : Value) : Except Error Codec :=
  (find key).bind fun codec? =>
    match codec? with
    | some codec => .ok codec
    | none => .error (.missing (some key))

def getD (key default : Value) : Except Error Value :=
  (find key).map fun codec? => codec?.elim default .codec

/-- No entry can be set. -/
def set : Error := .wrongType (.fixedTable false)

/-- No entry can be taken away. -/
def delete : Error := .wrongType (.fixedTable true)

end TypedHeaders.Codec.Table

namespace TypedHeaders.Codec

/-- No number can be assigned to an attribute of a codec: the features of its family are fixed, its
class could only be exchanged for another class, and it has room for nothing else. -/
def assign (codec : Codec) (name : String) : Error :=
  if name = "__class__" then .wrongType (.notClass "int")
  else if codec.kind.features.contains name then .noAttribute (.readOnly codec.className name)
  else .noAttribute (.ofObject codec.className name)

end TypedHeaders.Codec
