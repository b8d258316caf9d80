import TypedHeaders.Error
import TypedHeaders.Text.Case

/-! # Header names

A name is compared in lower case and written with each of its parts capitalized. Both are functions
of the name alone, so a header is found again under the name that it was written with whenever the
letters of the name are ASCII.
-/

namespace TypedHeaders.Name

def parts : List Char → List (List Char)
  | [] => [[]]
  | c :: rest =>
    if c = '-' then [] :: parts rest
    else match parts rest with
    | [] => [[c]]
    | part :: others => (c :: part) :: others

/-- A name with each of its parts capitalized. -/
def display (name : List Char) : List Char :=
  ['-'].intercalate ((parts name).map Text.capitalize)

/-- A name in lower case, where text and bytes are names. -/
def lower (name : Value) : Except Error Value :=
  match name with
  | .text s => .ok (.text (String.ofList (Text.lower s.toList)))
  | .octets data => .ok (.octets data.lower)
  | .buffer data => .ok (.buffer data.lower)
  | name => .error (.noAttribute (.ofObject name.typeName "lower"))

/-- A name as it is written on the wire, where only text has such a form. -/
def wireCase (name : Value) : Except Error String :=
  match name with
  | .text s => .ok (String.ofList (display s.toList))
  | .octets _ | .buffer _ => .error (.wrongType .bytesForText)
  | name => .error (.noAttribute (.ofObject name.typeName "split"))

/-- The length of the run of characters, from the first one on, that ASCII does not have. -/
def foreignRun (text : List Char) : Nat := (text.takeWhile fun c => 128 ≤ c.toNat).length

/-- The bytes of a text in ASCII. A failure reports the first characters that are in the way. -/
def ascii (text : List Char) : Except Error Octets :=
  let plain := text.takeWhile fun c => c.toNat < 128
  match text.drop plain.length with
  | [] => .ok (.ofAscii text)
  | c :: rest => .error (.notAscii plain.length (plain.length + 1 + foreignRun rest) c)

/-- The bytes that begin each line of the header with this name. -/
def label (name : Value) : Except Error Octets := (wireCase name).bind fun s => ascii s.toList

def codec (name : Value) : Except Error Codec :=
  (lower name).bind fun key =>
    match key with
    | .text s =>
      match Codec.ofHeader? s with
      | some codec => .ok codec
      | none => .error (.missing (some key))
    | .octets _ => .error (.missing (some key))
    | key => .error (.wrongType (.notHashable key.typeName))

end TypedHeaders.Name
