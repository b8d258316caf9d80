import TypedHeaders.Error
import TypedHeaders.Value.Equality

/-! # Digests

What the hash of a value is computed from. Values that are equal have the same digest, and a tagged
value has the digest of the tuple that holds the same thing. What has an identity is hashed by it. A
value that may change has no digest.
-/

namespace TypedHeaders

inductive DigestPart where
  | number (n : Int)
  | bytes (data : List Nat)
  | name (name : String)
  | codec (codec : Codec)
  | identity (identity : Identity)
  | opening
  | closing
deriving DecidableEq, Repr

namespace Extended

/-- Numbers are hashed by their residue modulo this prime. -/
def modulus : Nat := Nat.pow 2 61 - 1

/-- The residue of a number, with its sign. The denominator is a power of two, and two has the
order 61. The residue minus one is given up to mark failures. -/
def residue : Extended → Int
  | .undefined => 0
  | .infinite negative => if negative then -314159 else 314159
  | .fraction numerator denominator =>
    let inverse := Nat.pow 2 ((61 - denominator.log2 % 61) % 61)
    let size : Int := ↑(numerator.natAbs * inverse % modulus)
    let residue := if numerator < 0 then -size else size
    if residue = -1 then -2 else residue

end Extended

namespace Digest

/-- The bytes of a text in units as wide as its widest character needs. -/
def textUnits (text : List Char) : List Nat :=
  if text.all (·.toNat < 0x100) then text.map Char.toNat
  else if text.all (·.toNat < 0x10000) then
    text.flatMap fun c => [c.toNat % 256, c.toNat / 256]
  else
    text.flatMap fun c =>
      [c.toNat % 256, c.toNat / 256 % 256, c.toNat / 65536 % 256, c.toNat / 16777216]

/-- Bytes as they are, save that none at all count as zero. -/
def ofBytes (data : List Nat) : List DigestPart :=
  if data.isEmpty then [.number 0] else [.bytes data]

def dayBytes (date : CivilDate) : List Nat :=
  [date.year / 256, date.year % 256, date.month, date.day]

def clockBytes (clock : Clock) : List Nat :=
  [clock.hour, clock.minute, clock.second, clock.micro / 65536, clock.micro / 256 % 256,
   clock.micro % 256]

/-- The digest of a moment: its fields without a zone, and otherwise its distance in days, seconds
and microseconds from the day before the calendar begins. -/
def ofMoment (moment : Moment) : List DigestPart :=
  match moment.offset? with
  | none => ofBytes (dayBytes moment.date ++ clockBytes moment.clock)
  | some _ =>
    let inDay := (moment.instant.fmod microsPerDay).toNat
    [.opening, .number (moment.instant.fdiv microsPerDay + 1),
     .number ↑(inDay / microsPerSecond), .number ↑(inDay % microsPerSecond), .closing]

end Digest

namespace Value

open Digest in
/-- The digest of a value that contains no others, or the name of its type if it has none. -/
def plainDigest (value : Value) : Except String (List DigestPart) :=
  match value with
  | .text s => .ok (ofBytes (textUnits s.toList))
  | .octets data => .ok (ofBytes (data.map UInt8.toNat))
  | .date day => .ok (ofBytes (dayBytes day))
  | .moment when => .ok (ofMoment when)
  | .null => .ok [.name "null"]
  | .past => .ok [.name "past"]
  | .marker identity _ => .ok [.name "marker", .identity identity]
  | .codec c => .ok [.codec c]
  | .stream identity _ => .ok [.name "stream", .identity identity]
  | .floating x => .ok (if x.isUndefined then [.identity x.identity] else [.number x.value.residue])
  | value =>
    match value.number? with
    | some n => .ok [.number n.residue]
    | none => .error value.typeName

mutual

/-- The digest of a value, or the name of the type in it that has none. -/
def digest : Value → Except String (List DigestPart)
  | .tuple items => do
    let parts ← digestItems items
    pure (.opening :: parts ++ [.closing])
  | .tagged _ content => do
    let parts ← digest content
    pure (.opening :: parts ++ [.closing])
  | value => plainDigest value

def digestItems : List Value → Except String (List DigestPart)
  | [] => pure []
  | item :: rest => do
    let parts ← digest item
    let others ← digestItems rest
    pure (parts ++ others)

end

/-- The digest that a value has to have where it is looked up. -/
def hashed (value : Value) : Except Error (List DigestPart) :=
  value.digest.mapError fun type => .wrongType (.notHashable type)

end Value

end TypedHeaders
