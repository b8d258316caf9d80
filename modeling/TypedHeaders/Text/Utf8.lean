import TypedHeaders.Octets

/-! # UTF-8

The strict encoding form: every scalar value has one sequence of bytes, and nothing else is read.
Surrogates, overlong sequences and truncated sequences are refused.
-/

namespace TypedHeaders.Text.Utf8

def encodeChar (c : Char) : Octets :=
  let code := c.toNat
  if code < 0x80 then [.ofNat code]
  else if code < 0x800 then [.ofNat (0xC0 + code / 64), .ofNat (0x80 + code % 64)]
  else if code < 0x10000 then
    [.ofNat (0xE0 + code / 4096), .ofNat (0x80 + code / 64 % 64), .ofNat (0x80 + code % 64)]
  else
    [.ofNat (0xF0 + code / 262144), .ofNat (0x80 + code / 4096 % 64),
     .ofNat (0x80 + code / 64 % 64), .ofNat (0x80 + code % 64)]

def encode (text : List Char) : Octets := text.flatMap encodeChar

/-- The six bits that a continuation byte carries. -/
def payload? (b : UInt8) : Option Nat :=
  if 0x80 ≤ b ∧ b < 0xC0 then some (b.toNat - 0x80) else none

/-- The character of a multi-byte sequence, which has to need all of its bytes. -/
def scalar? (least code : Nat) : Option Char :=
  if least ≤ code ∧ code.isValidChar then some (Char.ofNat code) else none

/-- The text that has these bytes, if there is one. -/
def decode? : Octets → Option (List Char)
  | [] => some []
  | a :: rest =>
    if a < 0x80 then (decode? rest).map (Char.ofNat a.toNat :: ·)
    else match rest with
    | [] => none
    | b :: rest => do
      let y ← payload? b
      if 0xC0 ≤ a ∧ a < 0xE0 then
        let c ← scalar? 0x80 ((a.toNat - 0xC0) * 64 + y)
        (decode? rest).map (c :: ·)
      else match rest with
      | [] => none
      | d :: rest => do
        let z ← payload? d
        if 0xE0 ≤ a ∧ a < 0xF0 then
          let c ← scalar? 0x800 (((a.toNat - 0xE0) * 64 + y) * 64 + z)
          (decode? rest).map (c :: ·)
        else match rest with
        | [] => none
        | e :: rest => do
          let w ← payload? e
          if 0xF0 ≤ a ∧ a < 0xF8 then
            let c ← scalar? 0x10000 ((((a.toNat - 0xF0) * 64 + y) * 64 + z) * 64 + w)
            (decode? rest).map (c :: ·)
          else none

end TypedHeaders.Text.Utf8
