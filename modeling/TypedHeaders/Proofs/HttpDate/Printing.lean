import TypedHeaders.Proofs.HttpDate.Acceptance

/-! # Writing dates and reading them back

What is written for a moment is spelled in the form of RFC 1123, so it is read as the moment in UTC
at the start of the same second. A moment that was read is such a moment already, and so is written
and read again without change.
-/

namespace TypedHeaders

namespace CivilDate

theorem daysInMonth_le (year month : Nat) : daysInMonth year month ≤ 31 := by
  unfold daysInMonth
  split
  · decide
  · rw [List.getD_eq_getElem?_getD]
    cases found : (monthLengths year)[month - 1]? with
    | none => decide
    | some length =>
      have member := List.mem_of_getElem? found
      have bounds : ∀ length ∈ monthLengths year, length ≤ 31 := by
        unfold monthLengths
        cases isLeapYear year <;> decide
      exact bounds length member

private theorem weekday_lt (date : CivilDate) : date.weekday < 7 := Nat.mod_lt _ (by decide)

end CivilDate

namespace HttpDate

private theorem isDecimal_padded {width n : Nat} (positive : 0 < width) (bound : n < 10 ^ width) :
    IsDecimal width (padded width n) n := by
  have short := (Nat.length_toDigits_le_iff (b := 10) (by decide) positive).mpr bound
  refine ⟨?_, ?_, ?_⟩
  · simp only [padded, List.length_append, List.length_replicate]
    omega
  · intro c member
    rcases List.mem_append.mp member with zero | digit
    · rw [List.eq_of_mem_replicate zero]
      rfl
    · exact Nat.isDigit_of_mem_toDigits (by decide) (by decide) digit
  · simp only [padded, Nat.ofDigitChars_append, Nat.ofDigitChars_replicate_zero, Nat.mul_zero,
      Nat.ofDigitChars_ten_toDigits]

theorem exists_weekdayName (date : CivilDate) : ∃ name,
    weekdayNames[date.weekday]? = some name ∧ date.weekdayText = abbreviation name := by
  have known : date.weekday < weekdayNames.length := date.weekday_lt
  refine ⟨weekdayNames[date.weekday], List.getElem?_eq_getElem known, ?_⟩
  rw [CivilDate.weekdayText, List.getD_eq_getElem?_getD, List.getElem?_eq_getElem known,
    Option.getD_some]

theorem exists_monthName (date : CivilDate) : ∃ name,
    monthNames[date.month - 1]? = some name ∧ date.monthText = abbreviation name := by
  obtain ⟨-, -, first, last, -⟩ := date.isCivil
  have known : date.month - 1 < monthNames.length := by
    change date.month - 1 < 12
    omega
  refine ⟨monthNames[date.month - 1], List.getElem?_eq_getElem known, ?_⟩
  rw [CivilDate.monthText, List.getD_eq_getElem?_getD, List.getElem?_eq_getElem known,
    Option.getD_some]

private theorem isShortWeekday_weekdayText (date : CivilDate) :
    IsShortWeekday date.weekdayText := by
  obtain ⟨name, known, text⟩ := exists_weekdayName date
  exact ⟨name, List.mem_of_getElem? known, text ▸ rfl⟩

theorem isMonth_monthText (date : CivilDate) : IsMonth date.monthText date.month := by
  obtain ⟨-, -, first, -⟩ := date.isCivil
  obtain ⟨name, known, text⟩ := exists_monthName date
  exact ⟨date.month - 1, name, known, by omega, text ▸ rfl⟩

def fieldsOf (moment : Moment) : Written :=
  ⟨moment.date.year, moment.date.month, moment.date.day, moment.clock.hour, moment.clock.minute,
   moment.clock.second, 0⟩

theorem isDecimal_two {n : Nat} (bound : n < 100) : IsDecimal 2 (padded 2 n) n :=
  isDecimal_padded (by decide) bound

def timeText (clock : Clock) : List Char :=
  padded 2 clock.hour ++ ':' :: (padded 2 clock.minute ++ ':' :: padded 2 clock.second)

/-- A clock printed as text is a time of the grammar with the same three numbers. -/
theorem isTime_timeText (clock : Clock) :
    IsTime (timeText clock) (clock.hour, clock.minute, clock.second) := by
  obtain ⟨hour, minute, second, -⟩ := clock.inRange
  exact ⟨_, _, _, rfl, isDecimal_two (by omega), isDecimal_two (by omega), isDecimal_two (by omega)⟩

theorem isDecimal_day (date : CivilDate) : IsDecimal 2 (padded 2 date.day) date.day := by
  obtain ⟨-, -, -, -, -, last⟩ := date.isCivil
  have bound := CivilDate.daysInMonth_le date.year date.month
  exact isDecimal_two (by omega)

theorem isDecimal_year (date : CivilDate) : IsDecimal 4 (padded 4 date.year) date.year := by
  obtain ⟨-, last, -⟩ := date.isCivil
  exact isDecimal_padded (by decide) (by omega)

/-- The text that the forms of RFC 1123 have before the zone, for a weekday and a day of the month
that are given as text. -/
def dayMonthYearText (weekday day : List Char) (moment : Moment) : List Char :=
  weekday ++ ',' :: ' ' :: (day ++ ' ' :: (moment.date.monthText ++ ' ' ::
    (padded 4 moment.date.year ++ ' ' :: (timeText moment.clock ++ [' ']))))

/-- A weekday, a day, a month and a year printed in a row are a date head with the fields of the
moment. -/
theorem isDayMonthYear_text {weekday day : List Char} {moment : Moment}
    (isWeekday : IsShortWeekday weekday) (isDay : IsShortDay day moment.date.day) :
    IsDayMonthYear (dayMonthYearText weekday day moment) (fieldsOf moment) :=
  ⟨_, _, _, _, _, rfl, isWeekday, isDay, isMonth_monthText _, isDecimal_year _,
    isTime_timeText _, rfl⟩

/-- The printed date is the padded date head and the zone GMT. -/
theorem written_eq (moment : Moment) :
    written moment =
      dayMonthYearText moment.date.weekdayText (padded 2 moment.date.day) moment ++ "GMT".toList := by
  simp only [written, dayMonthYearText, timeText, List.append_assoc, List.cons_append,
    List.nil_append]
  rfl

/-- What is written for a moment is spelled in the form of RFC 1123. -/
theorem spelled_written (pivot : Nat) (moment : Moment) :
    Spelled pivot .rfc1123 (written moment) (fieldsOf moment) := by
  rw [written_eq]
  exact .rfc1123 (isDayMonthYear_text (isShortWeekday_weekdayText _) (.inr (isDecimal_day _)))
    ⟨by decide, List.all_eq_true.mp (by decide)⟩

/-- The written fields drop what is less than a second. -/
theorem instant_fieldsOf (moment : Moment) :
    (fieldsOf moment).instant = moment.localMicros / microsPerSecond * microsPerSecond := by
  obtain ⟨-, -, -, micro⟩ := moment.clock.inRange
  simp only [Written.instant, fieldsOf, Moment.localMicros, CivilDate.ordinal, Clock.micros,
    microsPerDay, microsPerSecond] at *
  omega

/-- The fields of a moment always name a real second. -/
theorem isReal_fieldsOf (moment : Moment) : (fieldsOf moment).IsReal := by
  obtain ⟨hour, minute, second, -⟩ := moment.clock.inRange
  obtain ⟨first, last⟩ := moment.inCalendar_localMicros
  refine ⟨moment.date.isCivil, ⟨hour, minute, second⟩, by simp [fieldsOf], ?_⟩
  rw [instant_fieldsOf]
  simp only [InCalendar, microsPerSecond] at *
  omega

/-- A written moment is read as the start of its second in UTC. -/
theorem read?_of_write? {pivot : Nat} (pivotBound : pivot ≤ 100) {moment : Moment}
    {text : List Char} (write : write? moment = some text) :
    ∃ start, moment.second? = some start ∧ read? pivot text = some start := by
  obtain ⟨reading, utc, rfl⟩ := Option.map_eq_some_iff.mp write
  obtain ⟨same, shown⟩ := Moment.instant_of_toUtc? utc
  have real := isReal_fieldsOf reading
  obtain ⟨start, startUtc, instant⟩ := real.exists_moment
  refine ⟨start, (moment.second?_eq_some_iff start).mpr ⟨startUtc, ?_⟩, ?_⟩
  · rw [instant, instant_fieldsOf, ← same, shown]
  · exact (read?_eq_some_iff pivotBound _ _).mpr
      ⟨.rfc1123, fieldsOf reading, spelled_written pivot reading, real, startUtc, instant⟩

/-- A moment that was read can be written, and is the start of its own second. -/
theorem write?_of_read? {pivot : Nat} (pivotBound : pivot ≤ 100) {text : List Char}
    {moment : Moment} (read : read? pivot text = some moment) :
    (write? moment).isSome ∧ moment.second? = some moment := by
  obtain ⟨form, fields, -, -, utc, instant⟩ := (read?_eq_some_iff pivotBound _ _).mp read
  have whole := fields.instant_emod
  constructor
  · rw [write?, Option.isSome_map, Moment.toUtc?_of_utc utc]
    rfl
  · refine (moment.second?_eq_some_iff moment).mpr ⟨utc, ?_⟩
    rw [instant]
    simp only [microsPerSecond] at *
    omega

end HttpDate

end TypedHeaders
