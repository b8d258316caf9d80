import TypedHeaders.Proofs.HttpDate.Printing
import TypedHeaders.Proofs.Time.Weekday

/-! # The day of the week in a written date

A written date begins with its day of the week, which no reader checks. It is the day of the week of
the date that follows it, which is the date in UTC and may be another one than the date of the
moment at its own offset. So Zeller's congruence gives it from the date as it is written, and dates
some days apart show days of the week that are as far apart.
-/

namespace TypedHeaders.HttpDate

/-- The days of the week as they are written, from Monday on. -/
def dayNames : List String := ["Mon", "Tue", "Wed", "Thu", "Fri", "Sat", "Sun"]

/-- The text begins with the name of a day of the week, counted from zero for Monday, and goes on
with a date in the form of RFC 1123. -/
structure Shows (text : List Char) (weekday : Nat) (date : CivilDate) : Prop where
  weekday : ∃ name, dayNames[weekday]? = some name ∧ name.toList <+: text
  date : ∃ fields, Spelled defaultPivot .rfc1123 text fields ∧
    fields.year = date.year ∧ fields.month = date.month ∧ fields.day = date.day

private theorem dayNames_nodup : dayNames.Nodup := by decide

private theorem length_dayName : ∀ name ∈ dayNames, name.toList.length = 3 := by decide

private theorem exists_dayName {weekday : Nat} {name : String}
    (known : weekdayNames[weekday]? = some name) :
    ∃ day, dayNames[weekday]? = some day ∧ day.toList = abbreviation name := by
  have names : dayNames.map String.toList = weekdayNames.map abbreviation := by decide
  have same := congrArg (fun texts => texts[weekday]?) names
  simp only [List.getElem?_map, known, Option.map_some] at same
  exact Option.map_eq_some_iff.mp same

/-- What a text shows can be read in one way only. -/
theorem Shows.unique {text : List Char} {weekday weekday' : Nat} {date date' : CivilDate}
    (shows' : Shows text weekday date) (others : Shows text weekday' date') :
    weekday = weekday' ∧ date = date' := by
  obtain ⟨⟨name, known, begins⟩, fields, spelled, year, month, day⟩ := shows'
  obtain ⟨⟨name', known', begins'⟩, fields', spelled', year', month', day'⟩ := others
  constructor
  · have lengths : name.toList.length = name'.toList.length := by
      rw [length_dayName name (List.mem_of_getElem? known),
        length_dayName name' (List.mem_of_getElem? known')]
    have same : name = name' := String.toList_inj.mp
      ((List.prefix_of_prefix_length_le begins begins' lengths.le).eq_of_length lengths)
    obtain ⟨inList, -⟩ := List.getElem?_eq_some_iff.mp known
    exact (List.getElem?_inj inList dayNames_nodup).mp (by rw [known, known', same])
  · obtain ⟨-, rfl⟩ := spelled.unique (by decide) spelled'
    cases date
    cases date'
    simp_all only

/-- What is written for a moment shows the date in UTC and its day of the week. -/
theorem exists_shows_of_inCalendar {moment : Moment} (reached : InCalendar moment.instant) :
    ∃ text date, write? moment = some text ∧ Shows text date.weekday date ∧
      date.ordinal = moment.instant / microsPerDay := by
  obtain ⟨reading, utc⟩ := Option.isSome_iff_exists.mp (moment.isSome_toUtc?_iff.mpr reached)
  obtain ⟨same, shown⟩ := Moment.instant_of_toUtc? utc
  obtain ⟨name, known, weekdayText⟩ := exists_weekdayName reading.date
  obtain ⟨day, known, short⟩ := exists_dayName known
  refine ⟨written reading, reading.date, by rw [write?, utc, Option.map_some], ⟨⟨day, known, ?_⟩,
    fieldsOf reading, spelled_written _ reading, rfl, rfl, rfl⟩, ?_⟩
  · rw [written_eq, dayMonthYearText, weekdayText, ← short, List.append_assoc]
    exact List.prefix_append ..
  · rw [← same, shown, ← reading.localMicros_split.1]
    rfl

/-- The weekday in a printed date is the one of the date it prints. -/
theorem weekday_of_shows {moment : Moment} {text : List Char} (write : write? moment = some text)
    {weekday : Nat} {date : CivilDate} (shows' : Shows text weekday date) :
    weekday = date.weekday := by
  have reached : InCalendar moment.instant := by
    rw [← moment.isSome_toUtc?_iff, ← Option.isSome_map (f := written)]
    exact Option.isSome_of_eq_some write
  obtain ⟨text', date', write', shown, -⟩ := exists_shows_of_inCalendar reached
  obtain rfl := Option.some.inj (write.symm.trans write')
  obtain ⟨rfl, rfl⟩ := shows'.unique shown
  rfl

/-- Every moment that the calendar reaches in UTC is written as a text that shows a day of the week
and the date in UTC. Whatever such a text shows, the day of the week is the one that Zeller's
congruence gives for the date, and of two dates some days apart the days of the week are as far
apart. -/
theorem weekday_of_write? :
    (∀ moment : Moment, InCalendar moment.instant → ∃ text weekday date,
      write? moment = some text ∧ Shows text weekday date ∧
        date.ordinal = moment.instant / microsPerDay) ∧
    ∀ (moment : Moment) (text : List Char) (weekday : Nat) (date : CivilDate),
      write? moment = some text → Shows text weekday date →
        weekday = (zeller date.year date.month date.day + 5) % 7 ∧
        ∀ (other : Moment) (text' : List Char) (weekday' : Nat) (date' : CivilDate) (days : Nat),
          write? other = some text' → Shows text' weekday' date' →
            date.later? days = some date' → weekday' = (weekday + days) % 7 := by
  refine ⟨fun moment reached => ?_, fun moment text weekday date write shown => ?_⟩
  · obtain ⟨text, date, write, shown, position⟩ := exists_shows_of_inCalendar reached
    exact ⟨text, date.weekday, date, write, shown, position⟩
  · obtain rfl := weekday_of_shows write shown
    refine ⟨date.weekday_eq_zeller, fun other text' weekday' date' days write' shown' later => ?_⟩
    rw [weekday_of_shows write' shown', CivilDate.weekday_later? later]

/-- At the same local time the leap day in UTC is shown two hours ahead of it, and the day after
where there is no zone. -/
theorem weekday_of_write?_leap_day :
    let ahead : Moment := ⟨⟨2000, 3, 1, by decide⟩, ⟨1, 30, 0, 0, by decide⟩,
      some ⟨7200 * microsPerSecond, by decide⟩⟩
    let naive : Moment := { ahead with offset? := none }
    ∃ text text', write? ahead = some text ∧ write? naive = some text' ∧
      Shows text 1 ⟨2000, 2, 29, by decide⟩ ∧ Shows text' 2 ⟨2000, 3, 1, by decide⟩ := by
  intro ahead naive
  obtain ⟨written, follow⟩ := weekday_of_write?
  obtain ⟨text, weekday, date, write, shown, position⟩ := written ahead ⟨by decide, by decide⟩
  obtain ⟨text', weekday', date', write', shown', position'⟩ := written naive ⟨by decide, by decide⟩
  have leapDay : date = ⟨2000, 2, 29, by decide⟩ :=
    CivilDate.ordinal_injective (Int.natCast_inj.mp (position.trans (by decide)))
  have next : date' = ⟨2000, 3, 1, by decide⟩ :=
    CivilDate.ordinal_injective (Int.natCast_inj.mp (position'.trans (by decide)))
  subst leapDay next
  obtain ⟨tuesday, later⟩ := follow ahead text weekday _ write shown
  have wednesday := later naive text' weekday' _ 1 write' shown' (by decide)
  rw [tuesday] at wednesday shown
  rw [wednesday] at shown'
  exact ⟨text, text', write, write', shown, shown'⟩

end TypedHeaders.HttpDate
