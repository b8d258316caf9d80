import TypedHeaders.Proofs.HttpDate.Printing

/-! # The ways of writing a moment

A moment can be written in each of the accepted forms: with any weekday and any name of a zone, since
neither is looked up, with one digit for a day or two, and in the local time of any offset. All of
these are read as that moment, because an offset adds to the local time what it takes off again.
-/

namespace TypedHeaders

/-- The moment in UTC that lies some minutes later, or earlier if they are negative. -/
def Moment.shifted? (moment : Moment) (minutes : Int) : Option Moment :=
  ofInstant? (moment.instant + minutes * 60 * microsPerSecond)

namespace HttpDate

inductive DayDigits where
  /-- One digit where it is enough. -/
  | fewest
  | two

def DayDigits.text (day : Nat) : DayDigits → List Char
  | .fewest => Nat.toDigits 10 day
  | .two => padded 2 day

/-- What fills the first of two columns for a day of the month that has one digit. -/
inductive DayFilling where
  | blank
  | zero

def DayFilling.text (day : Nat) : DayFilling → List Char
  | .blank =>
    let digits := Nat.toDigits 10 day
    List.replicate (2 - digits.length) ' ' ++ digits
  | .zero => padded 2 day

/-- An offset from UTC of whole minutes, fewer than a day has. -/
structure WrittenOffset where
  behind : Bool
  minutes : Nat
  inDay : minutes < 24 * 60

namespace WrittenOffset

def ahead (offset : WrittenOffset) : Int :=
  if offset.behind then -offset.minutes else offset.minutes

/-- `+HHMM` or `-HHMM` -/
def text (offset : WrittenOffset) : List Char :=
  (if offset.behind then '-' else '+') ::
    (padded 2 (offset.minutes / 60) ++ padded 2 (offset.minutes % 60))

end WrittenOffset

/-- What a way of writing chooses beyond the moment itself. -/
inductive Rendering where
  | rfc1123 (weekday : List Char) (isWeekday : IsShortWeekday weekday) (day : DayDigits)
      (zone : List Char) (isZone : IsZoneName zone)
  | rfc1123Offset (weekday : List Char) (isWeekday : IsShortWeekday weekday) (day : DayDigits)
      (offset : WrittenOffset)
  | rfc850 (weekday : List Char) (isWeekday : IsLongWeekday weekday) (day : DayDigits)
      (zone : List Char) (isZone : IsZoneName zone)
  | asctime (weekday : List Char) (isWeekday : IsShortWeekday weekday) (day : DayFilling)

namespace Rendering

/-- The text of a moment in UTC. With an offset it shows the local time, if the calendar has it. -/
def text? (moment : Moment) : Rendering → Option (List Char)
  | .rfc1123 weekday _ day zone _ =>
    some (dayMonthYearText weekday (day.text moment.date.day) moment ++ zone)
  | .rfc1123Offset weekday _ day offset =>
    (moment.shifted? offset.ahead).map fun shown =>
      dayMonthYearText weekday (day.text shown.date.day) shown ++ offset.text
  | .rfc850 weekday _ day zone _ =>
    some (weekday ++ ',' :: ' ' :: (day.text moment.date.day ++ '-' :: (moment.date.monthText ++ '-' ::
      (padded 2 (moment.date.year % 100) ++ ' ' :: (timeText moment.clock ++ ' ' :: zone)))))
  | .asctime weekday _ day =>
    some (weekday ++ ' ' :: (moment.date.monthText ++ ' ' :: (day.text moment.date.day ++ ' ' ::
      (timeText moment.clock ++ ' ' :: padded 4 moment.date.year))))

/-- Whether a moment can be written so: the calendar has the local time, and two digits tell the year
if it lies in the hundred years from the pivot on. -/
def Suits (pivot : Nat) (moment : Moment) : Rendering → Prop
  | .rfc1123Offset _ _ _ offset =>
    InCalendar (moment.instant + offset.ahead * 60 * microsPerSecond)
  | .rfc850 .. => 1900 + pivot ≤ moment.date.year ∧ moment.date.year ≤ 1999 + pivot
  | .rfc1123 .. | .asctime .. => True

end Rendering

/-! ## The pieces -/

/-- A day of the month has one digit or two. -/
private theorem length_toDigits_day (date : CivilDate) :
    (Nat.toDigits 10 date.day).length = 1 ∨ (Nat.toDigits 10 date.day).length = 2 := by
  have positive := List.length_pos_iff.mpr (Nat.toDigits_ne_nil : Nat.toDigits 10 date.day ≠ [])
  obtain ⟨-, -, -, -, -, last⟩ := date.isCivil
  have bound := CivilDate.daysInMonth_le date.year date.month
  have short : (Nat.toDigits 10 date.day).length ≤ 2 :=
    (Nat.length_toDigits_le_iff (by decide) (by decide)).mpr (by omega)
  omega

private theorem isShortDay_text (date : CivilDate) (digits : DayDigits) :
    IsShortDay (digits.text date.day) date.day := by
  cases digits with
  | two => exact .inr (isDecimal_day date)
  | fewest =>
    have decimal := isDecimal_toDigits date.day
    rcases length_toDigits_day date with one | two
    · exact .inl (one ▸ decimal)
    · exact .inr (two ▸ decimal)

private theorem isPaddedDay_text (date : CivilDate) (filling : DayFilling) :
    IsPaddedDay (filling.text date.day) date.day := by
  cases filling with
  | zero => exact .inl (isDecimal_day date)
  | blank =>
    have decimal := isDecimal_toDigits date.day
    simp only [DayFilling.text]
    rcases length_toDigits_day date with one | two
    · rw [one] at decimal ⊢
      exact .inr ⟨_, rfl, decimal⟩
    · rw [two] at decimal ⊢
      exact .inl decimal

private theorem isOffset_text (offset : WrittenOffset) : IsOffset offset.text offset.ahead := by
  have inDay := offset.inDay
  refine ⟨_, _, _, _, offset.minutes / 60, offset.minutes % 60, rfl, rfl, isDecimal_two (by omega),
    isDecimal_two (by omega), Nat.mod_lt _ (by decide), ?_⟩
  rw [Nat.div_add_mod', WrittenOffset.ahead]
  cases offset.behind with
  | true => exact .inr ⟨rfl, rfl⟩
  | false => exact .inl ⟨rfl, rfl⟩

/-! ## Reading what is written -/

/-- A moment is read from any text that is spelled with fields at its instant. -/
theorem read?_of_spelled {pivot : Nat} (pivotBound : pivot ≤ 100) {moment : Moment}
    (utc : moment.offset? = some .utc) {form : Form} {text : List Char} {fields : Written}
    (spelled : Spelled pivot form text fields) (real : fields.IsReal)
    (instant : fields.instant = moment.instant) : read? pivot text = some moment :=
  (read?_eq_some_iff pivotBound _ _).mpr ⟨form, fields, spelled, real, utc, instant.symm⟩

private theorem instant_fieldsOf_of_whole {moment : Moment} (utc : moment.offset? = some .utc)
    (whole : moment.clock.micro = 0) : (fieldsOf moment).instant = moment.instant := by
  have micro := Moment.micro_of_utc utc
  rw [whole] at micro
  rw [instant_fieldsOf, ← Moment.instant_of_utc utc]
  simp only [microsPerSecond] at *
  omega

/-- Whole minutes away from a whole second lies a whole second. -/
theorem whole_of_shifted? {moment shown : Moment} {minutes : Int}
    (utc : moment.offset? = some .utc) (whole : moment.clock.micro = 0)
    (shifted : moment.shifted? minutes = some shown) : shown.clock.micro = 0 := by
  obtain ⟨utc', instant⟩ := (Moment.ofInstant?_eq_some_iff _ _).mp shifted
  have micro := Moment.micro_of_utc utc
  have micro' := Moment.micro_of_utc utc'
  simp only [microsPerSecond] at *
  omega

/-- The fields of a local time name the moment whose local time it is. -/
theorem isReal_and_instant_of_shifted? {moment shown : Moment} {offset : WrittenOffset}
    (utc : moment.offset? = some .utc) (whole : moment.clock.micro = 0)
    (shifted : moment.shifted? offset.ahead = some shown) :
    let fields := { fieldsOf shown with ahead := offset.ahead }
    fields.IsReal ∧ fields.instant = moment.instant := by
  obtain ⟨utc', instant'⟩ := (Moment.ofInstant?_eq_some_iff _ _).mp shifted
  have inDay := offset.inDay
  have real := isReal_fieldsOf shown
  -- The fields of the local time lie ahead by the offset, which their instant takes off again.
  have instant : ({ fieldsOf shown with ahead := offset.ahead } : Written).instant =
      moment.instant := by
    have shownInstant := instant_fieldsOf_of_whole utc' (whole_of_shifted? utc whole shifted)
    simp only [Written.instant, fieldsOf] at shownInstant ⊢
    omega
  refine ⟨⟨real.civil, real.time, ?_, ?_⟩, instant⟩
  · simp only [WrittenOffset.ahead]
    split <;> omega
  · rw [instant, Moment.instant_of_utc utc]
    exact moment.inCalendar_localMicros

/-- However a moment is written, it is read from that. -/
theorem read?_text? {pivot : Nat} (pivotBound : pivot ≤ 100) {moment : Moment}
    (utc : moment.offset? = some .utc) (whole : moment.clock.micro = 0) {rendering : Rendering}
    (suits : rendering.Suits pivot moment) :
    ∃ text, rendering.text? moment = some text ∧ read? pivot text = some moment := by
  have real := isReal_fieldsOf moment
  have instant := instant_fieldsOf_of_whole utc whole
  cases rendering with
  | rfc1123 weekday isWeekday day zone isZone =>
    have head := isDayMonthYear_text isWeekday (isShortDay_text moment.date day)
    exact ⟨_, rfl, read?_of_spelled pivotBound utc (.rfc1123 head isZone) real instant⟩
  | rfc1123Offset weekday isWeekday day offset =>
    obtain ⟨shown, shifted⟩ :=
      Option.isSome_iff_exists.mp ((Moment.ofInstant?_isSome_iff _).mpr suits)
    obtain ⟨real', instant'⟩ := isReal_and_instant_of_shifted? utc whole shifted
    have head := isDayMonthYear_text isWeekday (isShortDay_text shown.date day)
    exact ⟨_, Option.map_eq_some_iff.mpr ⟨shown, shifted, rfl⟩,
      read?_of_spelled pivotBound utc (.rfc1123Offset head (isOffset_text offset)) real' instant'⟩
  | rfc850 weekday isWeekday day zone isZone =>
    have short := isDecimal_two (Nat.mod_lt moment.date.year (show 0 < 100 by decide))
    exact ⟨_, rfl, read?_of_spelled pivotBound utc
      (.rfc850 isWeekday (isShortDay_text moment.date day) (isMonth_monthText _) short ⟨rfl, suits⟩
        (isTime_timeText _) isZone) real instant⟩
  | asctime weekday isWeekday day =>
    exact ⟨_, rfl, read?_of_spelled pivotBound utc
      (.asctime isWeekday (isMonth_monthText _) (isPaddedDay_text moment.date day)
        (isTime_timeText _) (isDecimal_year _)) real instant⟩

/-- Every way of writing a moment of whole seconds gives a text from which the moment is read, so what
is written for it again is one and the same text. -/
theorem read?_of_rendering (pivot : Nat) (pivotBound : pivot ≤ 100) (moment : Moment)
    (utc : moment.offset? = some .utc) (whole : moment.clock.micro = 0) (rendering : Rendering)
    (suits : rendering.Suits pivot moment) :
    ∃ text, rendering.text? moment = some text ∧ read? pivot text = some moment ∧
      (read? pivot text).bind write? = some (written moment) := by
  obtain ⟨text, made, read⟩ := read?_text? pivotBound utc whole suits
  refine ⟨text, made, read, ?_⟩
  rw [read, Option.bind_some, write?, Moment.toUtc?_of_utc utc, Option.map_some]

theorem read?_of_rendering_behind :
    let moment : Moment := ⟨⟨2000, 3, 1, by decide⟩, ⟨0, 30, 0, 0, by decide⟩, some .utc⟩
    moment.offset? = some .utc ∧ moment.clock.micro = 0 ∧
      read? 69 "mon, 29 Feb 2000 23:45:00 -0045".toList = some moment := by
  intro moment
  let rendering : Rendering :=
    .rfc1123Offset "mon".toList ⟨"Monday", by decide, rfl⟩ .fewest ⟨true, 45, by decide⟩
  have suits : rendering.Suits 69 moment := by
    unfold rendering Rendering.Suits InCalendar
    decide
  have made : rendering.text? moment = some "mon, 29 Feb 2000 23:45:00 -0045".toList := by decide
  obtain ⟨text, made', read, -⟩ := read?_of_rendering 69 (by decide) moment rfl rfl rendering suits
  obtain rfl := Option.some.inj (made.symm.trans made')
  exact ⟨rfl, rfl, read⟩

end HttpDate

end TypedHeaders
