/-! # Numerals

Whole numbers as header fields write them: decimal digits, after a minus sign where the field is
signed, within the range of a binary word. A numeral of very many digits is refused unread, and a
number that needs as many is not written.
-/

namespace TypedHeaders

/-- The most digits that a numeral may have, leading zeros included. -/
def digitLimit : Nat := 4300

def numeral (n : Int) : List Char :=
  if n < 0 then '-' :: Nat.toDigits 10 n.natAbs else Nat.toDigits 10 n.natAbs

/-- The number of digits in the numeral of a number, the sign not counted. -/
def digitCount (n : Int) : Nat := (Nat.toDigits 10 n.natAbs).length

/-- One or more decimal digits and nothing else. -/
def isDigits (text : List Char) : Bool := !text.isEmpty && text.all Char.isDigit

/-- The numbers that a field can hold: those of a binary word of `bits` bits, and when it is signed
also their negatives with one more. -/
structure IntegerRange where
  signed : Bool
  bits : Nat
deriving DecidableEq, Repr

namespace IntegerRange

def low (range : IntegerRange) : Int := if range.signed then -Int.pow 2 range.bits else 0

def high (range : IntegerRange) : Int := Int.pow 2 range.bits - 1

def contains (range : IntegerRange) (n : Int) : Bool := range.low ≤ n && n ≤ range.high

/-- Whether a text has the form of a numeral; only a signed range admits a minus sign. -/
def isNumeral (range : IntegerRange) : List Char → Bool
  | '-' :: digits => range.signed && isDigits digits
  | text => isDigits text

/-- Why a text is no number of a range. -/
inductive Rejection where
  | notNumeral
  | tooLong
  | outOfRange
deriving DecidableEq, Repr

/-- The number that a numeral stands for, and whether it has too many digits to be read. -/
def numeralValue? : List Char → Option Int
  | '-' :: digits =>
    if digits.length ≤ digitLimit then some (-↑(Nat.ofDigitChars 10 digits 0)) else none
  | digits => if digits.length ≤ digitLimit then some ↑(Nat.ofDigitChars 10 digits 0) else none

/-- The number of the range that a text writes. -/
def read (range : IntegerRange) (text : List Char) : Except Rejection Int :=
  if !range.isNumeral text then .error .notNumeral
  else match numeralValue? text with
  | none => .error .tooLong
  | some n => if range.contains n then .ok n else .error .outOfRange

end IntegerRange

end TypedHeaders
