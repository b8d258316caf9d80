/-! # Octets

Raw field values as they travel on the wire.
-/

namespace TypedHeaders

abbrev Octets := List UInt8

namespace Octets

/-- ASCII text as bytes, one for each character. -/
def ofAscii (text : List Char) : Octets := text.map fun c => UInt8.ofNat c.toNat

def ofPhrase (phrase : String) : Octets := ofAscii phrase.toList

/-- Capital ASCII letters become small ones and every other byte stays. -/
def lower (data : Octets) : Octets :=
  data.map fun b => if 65 ≤ b ∧ b ≤ 90 then b + 32 else b

end Octets

end TypedHeaders
