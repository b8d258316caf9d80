import TypedHeaders.Octets
import TypedHeaders.Text.Case
import TypedHeaders.Text.PrintableTable

/-! # Quoted text

The printed form of text and of octets inside messages. A quotation stands between single marks,
or between double marks when it holds a single mark and no double one; what has no printable shape
is escaped in hexadecimal.
-/

namespace TypedHeaders.Text

/-- Whether a character has a shape of its own on paper. -/
def printable (c : Char) : Bool := !covered c.toNat unprintableRanges

/-- `width` hexadecimal digits, leading zeros included. -/
def hexadecimal (width code : Nat) : List Char :=
  let digits := Nat.toDigits 16 code
  List.replicate (width - digits.length) '0' ++ digits

/-- The escape of a character that has no printable shape. -/
def escape (code : Nat) : List Char :=
  if code ≤ 0xFF then '\\' :: 'x' :: hexadecimal 2 code
  else if code ≤ 0xFFFF then '\\' :: 'u' :: hexadecimal 4 code
  else '\\' :: 'U' :: hexadecimal 8 code

/-- The mark around a quotation: the double one only where that saves escaping single ones. -/
def quotationMark (hasSingle hasDouble : Bool) : Char :=
  if hasSingle && !hasDouble then '"' else '\''

/-- The characters that are escaped in every quotation, with their escapes. -/
def commonEscape? (mark c : Char) : Option (List Char) :=
  if c = mark ∨ c = '\\' then some ['\\', c]
  else if c = '\n' then some ['\\', 'n']
  else if c = '\r' then some ['\\', 'r']
  else if c = '\t' then some ['\\', 't']
  else none

def quoted (text : List Char) : List Char :=
  let mark := quotationMark (text.contains '\'') (text.contains '"')
  let body := text.flatMap fun c =>
    (commonEscape? mark c).getD (if printable c then [c] else escape c.toNat)
  mark :: body ++ [mark]

/-- Octets between quotation marks, with ASCII characters shown as themselves. A mark inside that is
the one `escaped` there is escaped. -/
def shownOctets (escaped : Char → Char) (data : Octets) : List Char :=
  let shown := data.map fun b => Char.ofNat b.toNat
  let mark := quotationMark (shown.contains '\'') (shown.contains '"')
  let body := shown.flatMap fun c =>
    (commonEscape? (escaped mark) c).getD
      (if ' ' ≤ c ∧ c.toNat < 0x7F then [c] else '\\' :: 'x' :: hexadecimal 2 c.toNat)
  'b' :: mark :: body ++ [mark]

/-- Octets between quotation marks. Only the mark around them is escaped inside. -/
def quotedOctets (data : Octets) : List Char := shownOctets id data

/-- The octets of a buffer between quotation marks. Single marks are escaped inside even where
double ones stand around. -/
def quotedBuffer (data : Octets) : List Char := shownOctets (fun _ => '\'') data

end TypedHeaders.Text
