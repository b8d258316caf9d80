import TypedHeaders.Time.Calendar

/-! # The written forms of an HTTP date

A recipient accepts three forms of a date, and the first of them also with a numeric offset. Names
may be written in any case. A form is read as a whole: what is left over makes it no date.
-/

namespace TypedHeaders.HttpDate

/-- The fields of a date as they are written, before they are known to name a real one. -/
structure Written where
  year : Nat
  month : Nat
  day : Nat
  hour : Nat
  minute : Nat
  second : Nat
  /-- How far the written time is ahead of UTC, in minutes. -/
  ahead : Int
deriving DecidableEq, Repr

/-- The first written character, if it is the expected one. -/
def mark? (expected : Char) : List Char → Option (List Char)
  | [] => none
  | c :: rest => if c = expected then some rest else none

def digit? : List Char → Option (Nat × List Char)
  | [] => none
  | c :: rest => if c.isDigit then some (c.toNat - '0'.toNat, rest) else none

def twoDigits? (text : List Char) : Option (Nat × List Char) := do
  let (tens, text) ← digit? text
  let (units, text) ← digit? text
  pure (tens * 10 + units, text)

def fourDigits? (text : List Char) : Option (Nat × List Char) := do
  let (hundreds, text) ← twoDigits? text
  let (units, text) ← twoDigits? text
  pure (hundreds * 100 + units, text)

/-- One decimal digit, or two where a second one follows. -/
def shortDay? (text : List Char) : Option (Nat × List Char) := do
  let (first, text) ← digit? text
  match digit? text with
  | some (second, text) => pure (first * 10 + second, text)
  | none => pure (first, text)

/-- Two columns for a day, the first of which may be blank. -/
def paddedDay? (text : List Char) : Option (Nat × List Char) :=
  match text with
  | ' ' :: text => digit? text
  | text => twoDigits? text

/-- What follows a word, if the text begins with it in any case. -/
def word? : List Char → List Char → Option (List Char)
  | [], text => some text
  | _ :: _, [] => none
  | letter :: word, c :: text => if c.toLower = letter.toLower then word? word text else none

/-- The position, counted from `index`, of the first of the words that the text begins with. -/
def oneOf? (index : Nat) : List (List Char) → List Char → Option (Nat × List Char)
  | [], _ => none
  | word :: words, text =>
    match word? word text with
    | some text => some (index, text)
    | none => oneOf? (index + 1) words text

/-- A day of the week in three letters. It is not checked against the date. -/
def shortWeekday? (text : List Char) : Option (List Char) :=
  (oneOf? 0 (weekdayNames.map abbreviation) text).map Prod.snd

/-- A day of the week in full. It is not checked against the date. -/
def longWeekday? (text : List Char) : Option (List Char) :=
  (oneOf? 0 (weekdayNames.map String.toList) text).map Prod.snd

def month? (text : List Char) : Option (Nat × List Char) :=
  oneOf? 1 (monthNames.map abbreviation) text

def time? (text : List Char) : Option ((Nat × Nat × Nat) × List Char) := do
  let (hour, text) ← twoDigits? text
  let text ← mark? ':' text
  let (minute, text) ← twoDigits? text
  let text ← mark? ':' text
  let (second, text) ← twoDigits? text
  pure ((hour, minute, second), text)

/-- The name of a zone: letters up to the end. Its meaning is not looked up. -/
def isZoneName (text : List Char) : Bool := !text.isEmpty && text.all Char.isAlpha

/-- A signed offset of hours and minutes, up to the end. -/
def offset? (text : List Char) : Option Int :=
  match text with
  | [] => none
  | sign :: text => do
    let (hours, text) ← twoDigits? text
    let (minutes, text) ← twoDigits? text
    if text.isEmpty ∧ minutes < 60 then
      if sign = '+' then some ↑(hours * 60 + minutes)
      else if sign = '-' then some (-↑(hours * 60 + minutes))
      else none
    else none

/-- The date and time that the two forms of RFC 1123 share, up to the zone. -/
def dayMonthYear? (text : List Char) : Option (Written × List Char) := do
  let text ← shortWeekday? text
  let text ← mark? ',' text
  let text ← mark? ' ' text
  let (day, text) ← shortDay? text
  let text ← mark? ' ' text
  let (month, text) ← month? text
  let text ← mark? ' ' text
  let (year, text) ← fourDigits? text
  let text ← mark? ' ' text
  let ((hour, minute, second), text) ← time? text
  let text ← mark? ' ' text
  pure (⟨year, month, day, hour, minute, second, 0⟩, text)

/-- The year that two digits stand for. Those below the pivot belong to the 2000s and the others
to the 1900s. -/
def fullYear (pivot short : Nat) : Nat := if short < pivot then 2000 + short else 1900 + short

/-- The four forms in the order in which a recipient tries them. -/
inductive Form where
  /-- `Sun, 06 Nov 1994 08:49:37 GMT` -/
  | rfc1123
  /-- `Sun, 06 Nov 1994 08:49:37 +0000` -/
  | rfc1123Offset
  /-- `Sunday, 06-Nov-94 08:49:37 GMT` -/
  | rfc850
  /-- `Sun Nov  6 08:49:37 1994` -/
  | asctime
deriving DecidableEq, Repr

namespace Form

def all : List Form := [.rfc1123, .rfc1123Offset, .rfc850, .asctime]

/-- The fields of a text that has this form. -/
def read? (pivot : Nat) (text : List Char) : Form → Option Written
  | .rfc1123 => do
    let (written, text) ← dayMonthYear? text
    if isZoneName text then some written else none
  | .rfc1123Offset => do
    let (written, text) ← dayMonthYear? text
    let ahead ← offset? text
    pure { written with ahead := ahead }
  | .rfc850 => do
    let text ← longWeekday? text
    let text ← mark? ',' text
    let text ← mark? ' ' text
    let (day, text) ← shortDay? text
    let text ← mark? '-' text
    let (month, text) ← month? text
    let text ← mark? '-' text
    let (year, text) ← twoDigits? text
    let text ← mark? ' ' text
    let ((hour, minute, second), text) ← time? text
    let text ← mark? ' ' text
    if isZoneName text then
      some ⟨fullYear pivot year, month, day, hour, minute, second, 0⟩
    else none
  | .asctime => do
    let text ← shortWeekday? text
    let text ← mark? ' ' text
    let (month, text) ← month? text
    let text ← mark? ' ' text
    let (day, text) ← paddedDay? text
    let text ← mark? ' ' text
    let ((hour, minute, second), text) ← time? text
    let text ← mark? ' ' text
    let (year, text) ← fourDigits? text
    if text.isEmpty then some ⟨year, month, day, hour, minute, second, 0⟩ else none

end Form

end TypedHeaders.HttpDate
