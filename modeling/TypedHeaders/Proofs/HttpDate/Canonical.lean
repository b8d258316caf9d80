import TypedHeaders.Proofs.HttpDate.Printing

/-! # The canonical form of a date

A second in UTC is written in one way only: in the form of RFC 1123 with the names as they stand in the
tables, the weekday that the day has, and all digits. These texts are exactly what is written for
moments, and moments are written alike exactly if they lie in the same second.
-/

namespace TypedHeaders

/-- The day and the time of day do not depend on what is less than a second. -/
theorem Moment.eq_of_second {a b : Moment}
    (same : a.localMicros / microsPerSecond = b.localMicros / microsPerSecond) :
    a.date = b.date ∧ a.clock.hour = b.clock.hour ∧ a.clock.minute = b.clock.minute ∧
      a.clock.second = b.clock.second := by
  obtain ⟨hour, minute, second, micro⟩ := a.clock.inRange
  obtain ⟨hour', minute', second', micro'⟩ := b.clock.inRange
  have inDay := a.clock.micros_lt
  have inDay' := b.clock.micros_lt
  have ordinal : a.date.ordinal = b.date.ordinal := by
    simp only [localMicros, microsPerDay, microsPerSecond] at *
    omega
  refine ⟨CivilDate.ordinal_injective ordinal, ?_⟩
  simp only [localMicros, Clock.micros, microsPerDay, microsPerSecond, ordinal] at *
  omega

namespace HttpDate

/-- `Wkd, DD Mon YYYY HH:MM:SS GMT` for a real day and time of day, with the English names as they
stand in the tables and the weekday of the day. -/
inductive IsCanonical : List Char → Prop
  | intro {date : CivilDate} {clock : Clock} {weekday month : String}
      {day year hour minute second : List Char}
      (weekdayName : weekdayNames[date.weekday]? = some weekday)
      (monthName : monthNames[date.month - 1]? = some month)
      (dayDigits : IsDecimal 2 day date.day) (yearDigits : IsDecimal 4 year date.year)
      (hourDigits : IsDecimal 2 hour clock.hour) (minuteDigits : IsDecimal 2 minute clock.minute)
      (secondDigits : IsDecimal 2 second clock.second) :
      IsCanonical (abbreviation weekday ++ ',' :: ' ' :: (day ++ ' ' :: (abbreviation month ++ ' ' ::
        (year ++ ' ' :: (hour ++ ':' :: (minute ++ ':' :: (second ++ ' ' :: "GMT".toList)))))))

/-- What is written for a moment is in canonical form. -/
theorem isCanonical_written (moment : Moment) : IsCanonical (written moment) := by
  obtain ⟨weekday, weekdayName, weekdayText⟩ := exists_weekdayName moment.date
  obtain ⟨month, monthName, monthText⟩ := exists_monthName moment.date
  obtain ⟨hour, minute, second, -⟩ := moment.clock.inRange
  have canonical := IsCanonical.intro weekdayName monthName (isDecimal_day moment.date)
    (isDecimal_year moment.date) (isDecimal_two (show moment.clock.hour < 100 by omega))
    (isDecimal_two (show moment.clock.minute < 100 by omega))
    (isDecimal_two (show moment.clock.second < 100 by omega))
  rw [written_eq, weekdayText]
  simpa only [dayMonthYearText, timeText, monthText, List.append_assoc, List.cons_append,
    List.nil_append] using canonical

/-- A text in canonical form is written for the moment in UTC at the start of its second. -/
theorem IsCanonical.exists_written {text : List Char} (canonical : IsCanonical text) :
    ∃ moment : Moment, moment.offset? = some .utc ∧ moment.clock.micro = 0 ∧
      written moment = text := by
  obtain @⟨date, clock, weekday, month, _, _, _, _, _, weekdayName, monthName, dayDigits, yearDigits,
    hourDigits, minuteDigits, secondDigits⟩ := canonical
  obtain ⟨hour, minute, second, -⟩ := clock.inRange
  let start : Clock :=
    ⟨clock.hour, clock.minute, clock.second, 0, hour, minute, second, by decide⟩
  obtain ⟨_, weekdayName', weekdayText⟩ := exists_weekdayName date
  obtain rfl := Option.some.inj (weekdayName.symm.trans weekdayName')
  obtain ⟨_, monthName', monthText⟩ := exists_monthName date
  obtain rfl := Option.some.inj (monthName.symm.trans monthName')
  refine ⟨⟨date, start, some .utc⟩, rfl, rfl, ?_⟩
  rw [written_eq, weekdayText, dayDigits.unique (isDecimal_day date)]
  simp only [dayMonthYearText, timeText, monthText, List.append_assoc, List.cons_append,
    List.nil_append, start, yearDigits.unique (isDecimal_year date),
    hourDigits.unique (isDecimal_two (show clock.hour < 100 by omega)),
    minuteDigits.unique (isDecimal_two (show clock.minute < 100 by omega)),
    secondDigits.unique (isDecimal_two (show clock.second < 100 by omega))]

/-! ## Writing moments -/

private theorem write?_eq_some_of_reading {moment reading : Moment}
    (utc : moment.toUtc? = some reading) :
    write? moment = some (written reading) := by
  rw [write?, utc, Option.map_some]

/-- A text in canonical form is read as a moment for which it is written. -/
theorem IsCanonical.exists_moment {pivot : Nat} (pivotBound : pivot ≤ 100) {text : List Char}
    (canonical : IsCanonical text) :
    ∃ moment, read? pivot text = some moment ∧ write? moment = some text := by
  obtain ⟨moment, utc, whole, rfl⟩ := canonical.exists_written
  have write := write?_eq_some_of_reading (Moment.toUtc?_of_utc utc)
  obtain ⟨start, second, read⟩ := read?_of_write? pivotBound write
  obtain ⟨startUtc, instant⟩ := (moment.second?_eq_some_iff start).mp second
  have micro := Moment.micro_of_utc utc
  have same : start.instant = moment.instant := by
    rw [instant]
    simp only [whole, microsPerSecond] at *
    omega
  obtain rfl := Moment.eq_of_utc_of_instant startUtc utc same
  exact ⟨start, read, write⟩

/-- Only canonical texts are ever printed. -/
theorem isCanonical_of_write? {moment : Moment} {text : List Char}
    (write : write? moment = some text) : IsCanonical text := by
  obtain ⟨reading, -, rfl⟩ := Option.map_eq_some_iff.mp write
  exact isCanonical_written reading

/-- The text of a moment does not depend on what is less than a second. -/
theorem written_eq_of_second {a b : Moment}
    (same : a.localMicros / microsPerSecond = b.localMicros / microsPerSecond) :
    written a = written b := by
  obtain ⟨date, hour, minute, second⟩ := Moment.eq_of_second same
  simp only [written, date, hour, minute, second]

/-- Moments that the calendar reaches in UTC are written, and alike exactly in the same second. -/
theorem write?_eq_write?_iff {a b : Moment} (reached : InCalendar a.instant)
    (reached' : InCalendar b.instant) :
    ∃ text text', write? a = some text ∧ write? b = some text' ∧
      (text = text' ↔ a.instant / microsPerSecond = b.instant / microsPerSecond) := by
  obtain ⟨reading, utc⟩ := Option.isSome_iff_exists.mp (a.isSome_toUtc?_iff.mpr reached)
  obtain ⟨reading', utc'⟩ := Option.isSome_iff_exists.mp (b.isSome_toUtc?_iff.mpr reached')
  have write := write?_eq_some_of_reading utc
  have write' := write?_eq_some_of_reading utc'
  refine ⟨_, _, write, write', fun same => ?_, fun same => written_eq_of_second ?_⟩
  · obtain ⟨start, second, read⟩ := read?_of_write? (show 0 ≤ 100 by decide) write
    obtain ⟨start', second', read'⟩ := read?_of_write? (show 0 ≤ 100 by decide) write'
    rw [same, read'] at read
    obtain rfl := Option.some.inj read
    have instant := ((a.second?_eq_some_iff _).mp second).2
    rw [((b.second?_eq_some_iff _).mp second').2] at instant
    simp only [microsPerSecond] at *
    omega
  · obtain ⟨instant, shown⟩ := Moment.instant_of_toUtc? utc
    obtain ⟨instant', shown'⟩ := Moment.instant_of_toUtc? utc'
    rw [← instant, ← instant', shown, shown'] at same
    exact_mod_cast same

end HttpDate

end TypedHeaders
