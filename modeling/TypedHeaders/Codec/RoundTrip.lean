import TypedHeaders.Codec.Decoding
import TypedHeaders.Sink
import TypedHeaders.Value.Equality

/-! # Round trips

Reading the fields of a header, writing what they hold, and reading that again. Many fields hold the
same value, but there is only one way to write it, so the second reading gives the first one back.
-/

namespace TypedHeaders

/-- A value as it was read, as it was written, and whether the written form reads as the same. -/
structure RoundTrip where
  value : Value
  wire : Octets
  stable : Bool

namespace Codec

def readsAs (codec : Codec) (wire : Octets) (value : Value) : Bool :=
  match codec.decodeFields [.octets wire] with
  | .ok reading => reading.value.any (·.equal value)
  | .error _ => false

/-- The round trip of the fields that are found by going through `raw`, if they hold a value. -/
def roundTrip (codec : Codec) (raw : Value) : Except Error (Option RoundTrip) := do
  let reading ← codec.decodeRaw raw
  match reading.value with
  | none => pure none
  | some value =>
    let wire ← codec.written value
    pure (some ⟨value, wire, codec.readsAs wire value⟩)

end Codec

end TypedHeaders
