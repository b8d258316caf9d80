import TypedHeaders.HttpDate.Grammar
import TypedHeaders.Proofs.Text.Decimal

/-! # What the forms of a date look like

The texts of the four forms, said without reference to how they are read. Each piece of a form is
a predicate on texts, and a form puts such pieces together with the marks between them. Names are
English and may be spelled in any case; the weekday and the name of a zone mean nothing.
-/

namespace TypedHeaders.HttpDate

/-- A text spells a name if it differs from it at most in the case of ASCII letters. -/
def Spells (text name : List Char) : Prop := text.map Char.toLower = name.map Char.toLower

def IsShortWeekday (text : List Char) : Prop := ∃ name ∈ weekdayNames, Spells text (abbreviation name)

def IsLongWeekday (text : List Char) : Prop := ∃ name ∈ weekdayNames, Spells text name.toList

/-- The first three letters of the name of a month, which is counted from one. -/
def IsMonth (text : List Char) (month : Nat) : Prop :=
  ∃ index name, monthNames[index]? = some name ∧ month = 1 + index ∧ Spells text (abbreviation name)

def IsShortDay (text : List Char) (day : Nat) : Prop := IsDecimal 1 text day ∨ IsDecimal 2 text day

/-- A day in two columns, the first of which may be blank. -/
def IsPaddedDay (text : List Char) (day : Nat) : Prop :=
  IsDecimal 2 text day ∨ ∃ digit, text = ' ' :: digit ∧ IsDecimal 1 digit day

/-- `HH:MM:SS` -/
def IsTime (text : List Char) (time : Nat × Nat × Nat) : Prop :=
  ∃ hour minute second, text = hour ++ ':' :: (minute ++ ':' :: second) ∧
    IsDecimal 2 hour time.1 ∧ IsDecimal 2 minute time.2.1 ∧ IsDecimal 2 second time.2.2

def IsZoneName (text : List Char) : Prop := text ≠ [] ∧ ∀ c ∈ text, c.isAlpha

/-- `+HHMM` or `-HHMM`, of which the minutes are less than an hour. -/
def IsOffset (text : List Char) (ahead : Int) : Prop :=
  ∃ sign digits hours minutes hour minute, text = sign :: digits ∧ digits = hours ++ minutes ∧
    IsDecimal 2 hours hour ∧ IsDecimal 2 minutes minute ∧ minute < 60 ∧
    (sign = '+' ∧ ahead = ↑(hour * 60 + minute) ∨ sign = '-' ∧ ahead = -↑(hour * 60 + minute))

/-- `Wkd, D[D] Mon YYYY HH:MM:SS` and the blank after it. -/
def IsDayMonthYear (text : List Char) (fields : Written) : Prop :=
  ∃ weekday day month year time, text = weekday ++ ',' :: ' ' :: (day ++ ' ' :: (month ++ ' ' ::
      (year ++ ' ' :: (time ++ [' '])))) ∧
    IsShortWeekday weekday ∧ IsShortDay day fields.day ∧ IsMonth month fields.month ∧
    IsDecimal 4 year fields.year ∧ IsTime time (fields.hour, fields.minute, fields.second) ∧
    fields.ahead = 0

/-- The year that ends in two digits and is one of the hundred that begin `pivot` years after
1900. -/
def IsYearInWindow (pivot short year : Nat) : Prop :=
  year % 100 = short ∧ 1900 + pivot ≤ year ∧ year ≤ 1999 + pivot

/-- The texts of each form, with the fields that they write. -/
inductive Spelled (pivot : Nat) : Form → List Char → Written → Prop where
  | rfc1123 {head zone : List Char} {fields : Written} (date : IsDayMonthYear head fields)
      (name : IsZoneName zone) : Spelled pivot .rfc1123 (head ++ zone) fields
  | rfc1123Offset {head zone : List Char} {fields : Written} {ahead : Int}
      (date : IsDayMonthYear head fields) (offset : IsOffset zone ahead) :
      Spelled pivot .rfc1123Offset (head ++ zone) { fields with ahead := ahead }
  | rfc850 {weekday dayText monthText yearText timeText zone : List Char}
      {day month short year hour minute second : Nat}
      (weekdayName : IsLongWeekday weekday) (dayDigits : IsShortDay dayText day)
      (monthName : IsMonth monthText month) (yearDigits : IsDecimal 2 yearText short)
      (window : IsYearInWindow pivot short year)
      (time : IsTime timeText (hour, minute, second)) (name : IsZoneName zone) :
      Spelled pivot .rfc850 (weekday ++ ',' :: ' ' :: (dayText ++ '-' :: (monthText ++ '-' ::
        (yearText ++ ' ' :: (timeText ++ ' ' :: zone)))))
        ⟨year, month, day, hour, minute, second, 0⟩
  | asctime {weekday monthText dayText timeText yearText : List Char}
      {year month day hour minute second : Nat}
      (weekdayName : IsShortWeekday weekday) (monthName : IsMonth monthText month)
      (dayColumns : IsPaddedDay dayText day) (time : IsTime timeText (hour, minute, second))
      (yearDigits : IsDecimal 4 yearText year) :
      Spelled pivot .asctime (weekday ++ ' ' :: (monthText ++ ' ' :: (dayText ++ ' ' ::
        (timeText ++ ' ' :: yearText)))) ⟨year, month, day, hour, minute, second, 0⟩

/-! ## Telling the forms apart -/

private theorem Spells.getElem? {text name : List Char} (spells : Spells text name) (index : Nat) :
    text[index]?.map Char.toLower = name[index]?.map Char.toLower := by
  have same := congrArg (·[index]?) spells
  simpa only [List.getElem?_map] using same

theorem IsShortWeekday.length {text : List Char} (weekday : IsShortWeekday text) :
    text.length = 3 := by
  obtain ⟨name, member, spells⟩ := weekday
  have names : ∀ name ∈ weekdayNames, (abbreviation name).length = 3 := by decide
  simpa [names name member] using congrArg List.length spells

/-- The fourth character of a full weekday name is neither the comma nor the blank of the other
forms. -/
theorem IsLongWeekday.fourth {text : List Char} (weekday : IsLongWeekday text) :
    3 < text.length ∧ text[3]? ≠ some ',' ∧ text[3]? ≠ some ' ' := by
  obtain ⟨name, member, spells⟩ := weekday
  have names : ∀ name ∈ weekdayNames, 3 < name.toList.length ∧
      name.toList[3]?.map Char.toLower ≠ some ',' ∧ name.toList[3]?.map Char.toLower ≠ some ' ' := by
    decide
  obtain ⟨length, notComma, notBlank⟩ := names name member
  rw [← spells.getElem?] at notComma notBlank
  refine ⟨?_, fun comma => notComma ?_, fun blank => notBlank ?_⟩
  · have same : text.length = name.toList.length := by simpa using congrArg List.length spells
    omega
  · rw [comma]; rfl
  · rw [blank]; rfl

/-- What the fourth character says about the form of a text. -/
def HasFourth (text : List Char) : Form → Prop
  | .rfc1123 | .rfc1123Offset => text[3]? = some ','
  | .rfc850 => text[3]? ≠ some ',' ∧ text[3]? ≠ some ' '
  | .asctime => text[3]? = some ' '

private theorem getElem?_three {weekday : List Char} (length : weekday.length = 3) (mark : Char)
    (rest : List Char) : (weekday ++ mark :: rest)[3]? = some mark := by
  rw [List.getElem?_append_right (by omega), length]
  rfl

/-- A date head has its comma in the fourth place. -/
theorem IsDayMonthYear.fourth {head : List Char} {fields : Written}
    (date : IsDayMonthYear head fields) (zone : List Char) : (head ++ zone)[3]? = some ',' := by
  obtain ⟨weekday, day, month, year, time, rfl, isWeekday, -⟩ := date
  rw [List.append_assoc, List.cons_append]
  exact getElem?_three isWeekday.length _ _

/-- Every spelling shows its form in the fourth character. -/
theorem Spelled.hasFourth {pivot : Nat} {form : Form} {text : List Char} {fields : Written}
    (spelled : Spelled pivot form text fields) : HasFourth text form := by
  cases spelled with
  | rfc1123 date zone => exact date.fourth _
  | rfc1123Offset date offset => exact date.fourth _
  | rfc850 isWeekday =>
    obtain ⟨length, fourth⟩ := isWeekday.fourth
    rwa [HasFourth, List.getElem?_append_left length]
  | asctime isWeekday => exact getElem?_three isWeekday.length _ _

/-- An offset begins with a sign, and no letter is a sign. -/
theorem IsOffset.not_isZoneName {text : List Char} {ahead : Int} (offset : IsOffset text ahead) :
    ¬ IsZoneName text := by
  rintro ⟨-, letters⟩
  obtain ⟨sign, digits, _, _, _, _, rfl, -, -, -, -, signs⟩ := offset
  have letter := letters sign (List.mem_cons_self ..)
  rcases signs with ⟨rfl, -⟩ | ⟨rfl, -⟩ <;> cases letter

/-! ## Characters -/

theorem Spells.isPlainText {text name : List Char} (spells : Spells text name)
    (letters : ∀ c ∈ name, c.isAlpha) : IsPlainText text := by
  intro c member
  have lower : c.toLower ∈ name.map Char.toLower := spells ▸ List.mem_map_of_mem member
  obtain ⟨letter, isLetter, same⟩ := List.mem_map.mp lower
  have bounds := (isAlpha_iff letter).mp (letters letter isLetter)
  have values := congrArg Char.toNat same
  simp only [toNat_toLower] at values
  split at values <;> split at values <;> omega

theorem IsShortWeekday.isPlainText {text : List Char} (weekday : IsShortWeekday text) :
    IsPlainText text := by
  obtain ⟨name, member, spells⟩ := weekday
  have letters : ∀ name ∈ weekdayNames, (abbreviation name).all Char.isAlpha := by decide
  exact spells.isPlainText (List.all_eq_true.mp (letters name member))

theorem IsLongWeekday.isPlainText {text : List Char} (weekday : IsLongWeekday text) :
    IsPlainText text := by
  obtain ⟨name, member, spells⟩ := weekday
  have letters : ∀ name ∈ weekdayNames, name.toList.all Char.isAlpha := by decide
  exact spells.isPlainText (List.all_eq_true.mp (letters name member))

theorem IsMonth.isPlainText {text : List Char} {month : Nat} (isMonth : IsMonth text month) :
    IsPlainText text := by
  obtain ⟨index, name, at', -, spells⟩ := isMonth
  have letters : ∀ name ∈ monthNames, (abbreviation name).all Char.isAlpha := by decide
  exact spells.isPlainText (List.all_eq_true.mp (letters name (List.mem_of_getElem? at')))

theorem IsZoneName.isPlainText {text : List Char} (zone : IsZoneName text) : IsPlainText text := by
  intro c member
  have bounds := (isAlpha_iff c).mp (zone.2 c member)
  omega

theorem IsShortDay.isPlainText {text : List Char} {day : Nat} (isDay : IsShortDay text day) :
    IsPlainText text := by
  rcases isDay with one | two
  · exact isPlainText_digits one.2.1
  · exact isPlainText_digits two.2.1

theorem IsPaddedDay.isPlainText {text : List Char} {day : Nat} (isDay : IsPaddedDay text day) :
    IsPlainText text := by
  rcases isDay with two | ⟨digit, rfl, one⟩
  · exact isPlainText_digits two.2.1
  · simp [isPlainText_digits one.2.1]

theorem IsTime.isPlainText {text : List Char} {time : Nat × Nat × Nat} (isTime : IsTime text time) :
    IsPlainText text := by
  obtain ⟨hour, minute, second, rfl, isHour, isMinute, isSecond⟩ := isTime
  simp [isPlainText_digits isHour.2.1, isPlainText_digits isMinute.2.1,
    isPlainText_digits isSecond.2.1]

theorem IsDayMonthYear.isPlainText {head : List Char} {fields : Written}
    (date : IsDayMonthYear head fields) : IsPlainText head := by
  obtain ⟨weekday, day, month, year, time, rfl, isWeekday, isDay, isMonth, isYear, isTime, -⟩ := date
  simp [isWeekday.isPlainText, isDay.isPlainText, isMonth.isPlainText,
    isPlainText_digits isYear.2.1, isTime.isPlainText]

theorem IsOffset.isPlainText {text : List Char} {ahead : Int} (offset : IsOffset text ahead) :
    IsPlainText text := by
  obtain ⟨sign, _, hours, minutes, _, _, rfl, rfl, isHour, isMinute, -, signs⟩ := offset
  rcases signs with ⟨rfl, -⟩ | ⟨rfl, -⟩ <;>
    simp [isPlainText_digits isHour.2.1, isPlainText_digits isMinute.2.1]

/-- All forms are written in ASCII, without control characters. -/
theorem Spelled.isPlainText {pivot : Nat} {form : Form} {text : List Char} {fields : Written}
    (spelled : Spelled pivot form text fields) : IsPlainText text := by
  cases spelled with
  | rfc1123 date zone => simp [date.isPlainText, zone.isPlainText]
  | rfc1123Offset date offset => simp [date.isPlainText, offset.isPlainText]
  | rfc850 isWeekday isDay isMonth isYear window isTime zone =>
    simp [isWeekday.isPlainText, isDay.isPlainText, isMonth.isPlainText,
      isPlainText_digits isYear.2.1, isTime.isPlainText, zone.isPlainText]
  | asctime isWeekday isMonth isDay isTime isYear =>
    simp [isWeekday.isPlainText, isMonth.isPlainText, isDay.isPlainText, isTime.isPlainText,
      isPlainText_digits isYear.2.1]

/-- Every form has a blank before the time. -/
theorem Spelled.blank_mem {pivot : Nat} {form : Form} {text : List Char} {fields : Written}
    (spelled : Spelled pivot form text fields) : ' ' ∈ text := by
  cases spelled with
  | rfc1123 date zone =>
    obtain ⟨weekday, day, month, year, time, rfl, -⟩ := date
    simp
  | rfc1123Offset date offset =>
    obtain ⟨weekday, day, month, year, time, rfl, -⟩ := date
    simp
  | rfc850 => simp
  | asctime => simp

end TypedHeaders.HttpDate
