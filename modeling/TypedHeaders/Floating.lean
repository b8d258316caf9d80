import TypedHeaders.Identity

/-! # Floating-point numbers

A binary64 number is held as its shortest decimal text, which is how it is printed. Comparing needs
the exact value, so the text is rounded once to the nearest 53-bit fraction, ties to even.
-/

namespace TypedHeaders

/-- A number on the extended line; a fraction is kept as numerator and positive denominator. -/
inductive Extended where
  | undefined
  | infinite (negative : Bool)
  | fraction (numerator : Int) (denominator : Nat)
deriving DecidableEq, Repr

namespace Extended

def ofInt (n : Int) : Extended := .fraction n 1

/-- Equality of value. Nothing equals the undefined number. -/
def equal : Extended → Extended → Bool
  | .infinite a, .infinite b => a == b
  | .fraction n d, .fraction m e => n * e == m * d
  | _, _ => false

def less : Extended → Extended → Bool
  | .undefined, _ => false
  | _, .undefined => false
  | .infinite a, .infinite b => a && !b
  | .infinite a, .fraction .. => a
  | .fraction .., .infinite b => !b
  | .fraction n d, .fraction m e => n * e < m * d

end Extended

/-- A floating-point number given by its shortest decimal text. -/
structure Floating where
  text : String
  /-- What tells the number from others. It matters only where the number is undefined. -/
  identity : Identity
deriving DecidableEq, Repr

namespace Floating

/-- The whole quotient nearest to a fraction, ties to even. -/
def roundDiv (numerator denominator : Nat) : Nat :=
  let quotient := numerator / denominator
  let twice := 2 * (numerator % denominator)
  if twice < denominator then quotient
  else if twice = denominator ∧ quotient % 2 = 0 then quotient
  else quotient + 1

/-- A positive fraction scaled by a power of two. -/
def scaled (numerator denominator : Nat) (shift : Int) : Nat × Nat :=
  if shift < 0 then (numerator * Nat.pow 2 (-shift).toNat, denominator)
  else (numerator, denominator * Nat.pow 2 shift.toNat)

/-- The nearest binary64 number to a positive fraction, as numerator and denominator. -/
def nearest (numerator denominator : Nat) : Nat × Nat :=
  let guess : Int := (numerator.log2 : Int) - denominator.log2 - 52
  let (a, b) := scaled numerator denominator guess
  let shift := max (-1074) (if a / b < Nat.pow 2 52 then guess - 1 else guess)
  let (a, b) := scaled numerator denominator shift
  let digits := roundDiv a b
  if shift < 0 then (digits, Nat.pow 2 (-shift).toNat) else (digits * Nat.pow 2 shift.toNat, 1)

/-- The digits of a decimal text, as significand and power of ten. -/
def decimal (text : List Char) : Nat × Int :=
  let body := text.takeWhile (· ≠ 'e')
  let whole := body.takeWhile (· ≠ '.')
  let places := (body.dropWhile (· ≠ '.')).drop 1
  let exponent : Int := match (text.dropWhile (· ≠ 'e')).drop 1 with
    | '-' :: digits => -↑(Nat.ofDigitChars 10 digits 0)
    | '+' :: digits => ↑(Nat.ofDigitChars 10 digits 0)
    | digits => ↑(Nat.ofDigitChars 10 digits 0)
  (Nat.ofDigitChars 10 (whole ++ places) 0, exponent - places.length)

def magnitude (text : List Char) : Extended :=
  if text = ['n', 'a', 'n'] then .undefined
  else if text = ['i', 'n', 'f'] then .infinite false
  else
    let (significand, exponent) := decimal text
    if significand = 0 then .fraction 0 1
    else
      let (numerator, denominator) :=
        if exponent < 0 then nearest significand (Nat.pow 10 (-exponent).toNat)
        else nearest (significand * Nat.pow 10 exponent.toNat) 1
      .fraction numerator denominator

def value (x : Floating) : Extended :=
  match x.text.toList with
  | '-' :: text =>
    match magnitude text with
    | .undefined => .undefined
    | .infinite _ => .infinite true
    | .fraction numerator denominator => .fraction (-numerator) denominator
  | text => magnitude text

def isUndefined (x : Floating) : Bool := x.value == .undefined

end Floating

end TypedHeaders
