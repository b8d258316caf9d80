import Mathlib.Logic.ExistsUnique
import TypedHeaders.HttpDate
import TypedHeaders.Proofs.HttpDate.Reader
import TypedHeaders.Proofs.Time.Moment

/-! # Which texts are dates

A form is read exactly from the texts that are spelled in it, and no text is spelled in two forms:
the fourth character tells the forms with a full weekday, with a comma, and with neither apart, and
the character after the time tells a zone name from an offset. So it does not matter in which order
the forms are tried, and a text is a date exactly when it is spelled in some form and its fields
name a moment.
-/

namespace TypedHeaders.HttpDate

/-! ## One form -/

private theorem fullYear_eq_iff {pivot short : Nat} (pivotBound : pivot ≤ 100)
    (shortBound : short < 100)
    (year : Nat) : fullYear pivot short = year ↔ IsYearInWindow pivot short year := by
  unfold fullYear IsYearInWindow
  split <;> omega

namespace Form

private theorem spelled_of_read? {pivot : Nat} (pivotBound : pivot ≤ 100) {form : Form}
    {text : List Char} {fields : Written} (read : form.read? pivot text = some fields) :
    Spelled pivot form text fields := by
  cases form with
  | rfc1123 =>
    simp only [read?, bind, Option.bind_eq_some_iff, Prod.exists, Option.ite_none_right_eq_some,
      isZoneName_iff, Option.some.injEq] at read
    obtain ⟨head, rest, readHead, zone, rfl⟩ := read
    obtain ⟨taken, isHead, rfl⟩ := (takes_dayMonthYear _ _ _).mp readHead
    exact .rfc1123 isHead zone
  | rfc1123Offset =>
    simp only [read?, bind, pure, Option.bind_eq_some_iff, Prod.exists, offset?_eq_some_iff,
      Option.some.injEq] at read
    obtain ⟨head, rest, readHead, ahead, offset, rfl⟩ := read
    obtain ⟨taken, isHead, rfl⟩ := (takes_dayMonthYear _ _ _).mp readHead
    exact .rfc1123Offset isHead offset
  | rfc850 =>
    simp only [read?, bind, Option.bind_eq_some_iff, mark?_eq_some_iff, Prod.exists,
      Option.ite_none_right_eq_some, isZoneName_iff, Option.some.injEq] at read
    obtain ⟨_, readWeekday, _, rfl, _, rfl, _, _, readDay, _, rfl, _, _, readMonth, _, rfl, _, _,
      readYear, _, rfl, _, _, _, _, readTime, _, rfl, zone, rfl⟩ := read
    obtain ⟨weekday, isWeekday, rfl⟩ := (skips_longWeekday _ _).mp readWeekday
    obtain ⟨day, isDay, eq⟩ := shortDay?_sound readDay
    obtain ⟨month, isMonth, rfl⟩ := (takes_month _ _ _).mp readMonth
    obtain ⟨year, isYear, rfl⟩ := (takes_twoDigits _ _ _).mp readYear
    obtain ⟨time, isTime, rfl⟩ := (takes_time _ _ _).mp readTime
    subst eq
    exact .rfc850 isWeekday isDay isMonth isYear
      ((fullYear_eq_iff pivotBound isYear.lt _).mp rfl) isTime zone
  | asctime =>
    simp only [read?, bind, Option.bind_eq_some_iff, mark?_eq_some_iff, Prod.exists,
      Option.ite_none_right_eq_some, List.isEmpty_iff, Option.some.injEq] at read
    obtain ⟨_, readWeekday, _, rfl, _, _, readMonth, _, rfl, _, _, readDay, _, rfl, _, _, _, _,
      readTime, _, rfl, _, _, readYear, rfl, rfl⟩ := read
    obtain ⟨weekday, isWeekday, rfl⟩ := (skips_shortWeekday _ _).mp readWeekday
    obtain ⟨month, isMonth, rfl⟩ := (takes_month _ _ _).mp readMonth
    obtain ⟨day, isDay, rfl⟩ := (takes_paddedDay _ _ _).mp readDay
    obtain ⟨time, isTime, rfl⟩ := (takes_time _ _ _).mp readTime
    obtain ⟨year, isYear, rfl⟩ := (takes_fourDigits _ _ _).mp readYear
    rw [List.append_nil]
    exact .asctime isWeekday isMonth isDay isTime isYear

private theorem read?_of_spelled {pivot : Nat} (pivotBound : pivot ≤ 100) {form : Form}
    {text : List Char} {fields : Written} (spelled : Spelled pivot form text fields) :
    form.read? pivot text = some fields := by
  cases spelled with
  | rfc1123 date zone =>
    simp [read?, takes_dayMonthYear.append date, (isZoneName_iff _).mpr zone]
  | rfc1123Offset date offset =>
    simp [read?, takes_dayMonthYear.append date, (offset?_eq_some_iff _ _).mpr offset]
  | rfc850 isWeekday isDay isMonth isYear window isTime zone =>
    have readDay := shortDay?_append isDay (show '-'.isDigit = false from rfl)
    have year := (fullYear_eq_iff pivotBound isYear.lt _).mpr window
    simp [read?, skips_longWeekday.append isWeekday, readDay, takes_month.append isMonth,
      takes_twoDigits.append isYear, takes_time.append isTime, (isZoneName_iff _).mpr zone, year]
  | asctime isWeekday isMonth isDay isTime isYear =>
    have readYear := takes_fourDigits.append isYear []
    rw [List.append_nil] at readYear
    simp [read?, skips_shortWeekday.append isWeekday, takes_month.append isMonth,
      takes_paddedDay.append isDay, takes_time.append isTime, readYear]

/-- A form is read from exactly the texts that are spelled in it. -/
theorem read?_eq_some_iff {pivot : Nat} (pivotBound : pivot ≤ 100) (form : Form) (text : List Char)
    (fields : Written) : form.read? pivot text = some fields ↔ Spelled pivot form text fields :=
  ⟨spelled_of_read? pivotBound, read?_of_spelled pivotBound⟩

end Form

private theorem not_name_and_offset {pivot : Nat} {text : List Char} {fields fields' : Written}
    (named : Spelled pivot .rfc1123 text fields)
    (shifted : Spelled pivot .rfc1123Offset text fields') : False := by
  cases named with
  | @rfc1123 head zone _ date name =>
    generalize same : head ++ zone = text at shifted
    cases shifted with
    | rfc1123Offset date' offset =>
      have read := takes_dayMonthYear.append date zone
      rw [same, takes_dayMonthYear.append date'] at read
      cases read
      exact offset.not_isZoneName name

/-- A text is spelled in one form at most, and writes the same fields however it is cut. -/
theorem Spelled.unique {pivot : Nat} (pivotBound : pivot ≤ 100) {form form' : Form}
    {text : List Char} {fields fields' : Written} (spelled : Spelled pivot form text fields)
    (spelled' : Spelled pivot form' text fields') : form = form' ∧ fields = fields' := by
  have sameForm : form = form' := by
    have fourth := spelled.hasFourth
    have fourth' := spelled'.hasFourth
    -- The fourth character leaves only the two forms of RFC 1123 to be told apart.
    cases form <;> cases form' <;> simp_all only [HasFourth, ne_eq, not_true_eq_false, and_false,
      false_and, Option.some.injEq, Char.reduceEq]
    · exact (not_name_and_offset spelled spelled').elim
    · exact (not_name_and_offset spelled' spelled).elim
  subst sameForm
  have read := (form.read?_eq_some_iff pivotBound text fields).mpr spelled
  rw [(form.read?_eq_some_iff pivotBound text fields').mpr spelled'] at read
  exact ⟨rfl, (Option.some.inj read).symm⟩

/-! ## The moment that the fields name -/

namespace Written

/-- The instant that the fields name: the written day and time, less the distance from UTC. -/
def instant (fields : Written) : Int :=
  (daysBeforeYear fields.year + daysBeforeMonth fields.year fields.month + (fields.day - 1) : Nat) *
      microsPerDay +
    ((fields.hour * 60 + fields.minute) * 60 + fields.second : Nat) * microsPerSecond -
    fields.ahead * 60 * microsPerSecond

/-- The fields are those of a real day and time, less than a day away from UTC, and the calendar
reaches the instant that they name. -/
structure IsReal (fields : Written) : Prop where
  civil : IsCivil fields.year fields.month fields.day
  time : fields.hour < 24 ∧ fields.minute < 60 ∧ fields.second < 60
  ahead : -(24 * 60) < fields.ahead ∧ fields.ahead < 24 * 60
  reached : InCalendar fields.instant

private theorem instant_eq {fields : Written} {date : CivilDate} {clock : Clock} {offset : Offset}
    (day : date.year = fields.year ∧ date.month = fields.month ∧ date.day = fields.day)
    (time : clock.hour = fields.hour ∧ clock.minute = fields.minute ∧
      clock.second = fields.second ∧ clock.micro = 0)
    (shift : offset.micros = fields.ahead * 60 * microsPerSecond) :
    (Moment.mk date clock (some offset)).instant = fields.instant := by
  simp only [Moment.instant, Moment.localMicros, CivilDate.ordinal, Clock.micros,
    Option.elim_some, Written.instant, day, time, shift]
  push_cast
  rw [Int.add_zero]

/-- Fields that name a real second name a moment in UTC. -/
theorem IsReal.exists_moment {fields : Written} (real : fields.IsReal) :
    ∃ moment : Moment, moment.offset? = some .utc ∧ moment.instant = fields.instant := by
  obtain ⟨moment, found⟩ := Option.isSome_iff_exists.mp
    ((Moment.ofInstant?_isSome_iff _).mpr real.reached)
  exact ⟨moment, (Moment.ofInstant?_eq_some_iff _ _).mp found⟩

/-- Dates are written to the second. -/
theorem instant_emod (fields : Written) : fields.instant % microsPerSecond = 0 := by
  simp only [instant, microsPerDay, microsPerSecond]
  omega

private theorem moment?_eq_some_iff (fields : Written) (moment : Moment) :
    fields.moment? = some moment ↔
      fields.IsReal ∧ moment.offset? = some .utc ∧ moment.instant = fields.instant := by
  simp only [moment?, bind, Option.bind_eq_some_iff, CivilDate.ofFields?_eq_some_iff,
    Clock.ofFields?_eq_some_iff, Offset.ofMicros?_eq_some_iff, Moment.toUtc?,
    Moment.ofInstant?_eq_some_iff]
  constructor
  · rintro ⟨date, day, clock, time, offset, shift, utc, instant⟩
    have found := (Moment.ofInstant?_eq_some_iff _ moment).mpr ⟨utc, instant⟩
    have reached := (Moment.ofInstant?_isSome_iff _).mp (Option.isSome_of_eq_some found)
    rw [instant_eq day time shift] at instant reached
    obtain ⟨inHours, inMinutes, inSeconds, -⟩ := clock.inRange
    have bound := offset.inRange
    refine ⟨⟨?_, ?_, ?_, reached⟩, utc, instant⟩
    · rw [← day.1, ← day.2.1, ← day.2.2]
      exact date.isCivil
    · omega
    · simp only [shift, microsPerDay, microsPerSecond] at bound
      omega
  · rintro ⟨⟨civil, ⟨inHours, inMinutes, inSeconds⟩, ⟨behind, ahead⟩, -⟩, utc, instant⟩
    let date : CivilDate := ⟨fields.year, fields.month, fields.day, civil⟩
    let clock : Clock :=
      ⟨fields.hour, fields.minute, fields.second, 0, inHours, inMinutes, inSeconds, by decide⟩
    let offset : Offset := ⟨fields.ahead * 60 * microsPerSecond, by
      simp only [microsPerDay, microsPerSecond]
      omega⟩
    refine ⟨date, ⟨rfl, rfl, rfl⟩, clock, ⟨rfl, rfl, rfl, rfl⟩, offset, rfl, utc, ?_⟩
    rw [instant, instant_eq ⟨rfl, rfl, rfl⟩ ⟨rfl, rfl, rfl, rfl⟩ rfl]

end Written

/-! ## The order of the forms -/

namespace Form

theorem mem_all (form : Form) : form ∈ all := by cases form <;> decide

/-- The pivot gives a year its century and has no part in what form a text has. -/
private theorem exists_read? {pivot : Nat} (pivot' : Nat) {form : Form} {text : List Char}
    {fields : Written} (read : form.read? pivot text = some fields) :
    ∃ fields', form.read? pivot' text = some fields' := by
  cases form with
  | rfc1123 => exact ⟨fields, read⟩
  | rfc1123Offset => exact ⟨fields, read⟩
  | asctime => exact ⟨fields, read⟩
  | rfc850 =>
    simp only [read?, bind, Option.bind_eq_some_iff, Prod.exists,
      Option.ite_none_right_eq_some, Option.some.injEq] at read ⊢
    obtain ⟨_, weekday, _, comma, _, blank, _, _, day, _, dash, _, _, month, _, dash', _, short,
      year, _, blank', _, _, _, _, time, _, blank'', zone, -⟩ := read
    exact ⟨_, _, weekday, _, comma, _, blank, _, _, day, _, dash, _, _, month, _, dash', _, short,
      year, _, blank', _, _, _, _, time, _, blank'', zone, rfl⟩

/-- A text has one form at most. -/
theorem eq_of_read? {pivot : Nat} {form form' : Form} {text : List Char} {fields fields' : Written}
    (read : form.read? pivot text = some fields) (read' : form'.read? pivot text = some fields') :
    form = form' := by
  obtain ⟨_, read⟩ := exists_read? 0 read
  obtain ⟨_, read'⟩ := exists_read? 0 read'
  exact ((spelled_of_read? (by decide) read).unique (by decide)
    (spelled_of_read? (by decide) read')).1

end Form

/-- The one form of a text decides what comes out, wherever it stands among the forms tried: the
others pass the text over, before it and after it. -/
theorem readIn?_eq_of_read? {pivot : Nat} {form : Form} {text : List Char} {fields : Written}
    (read : form.read? pivot text = some fields) {forms : List Form} (member : form ∈ forms) :
    readIn? pivot forms text = fields.moment? := by
  cases result : readIn? pivot forms text with
  | none =>
    have tried := List.findSome?_eq_none_iff.mp result form member
    rw [read] at tried
    exact tried.symm
  | some moment =>
    obtain ⟨form', -, tried⟩ := List.exists_of_findSome?_eq_some result
    obtain ⟨fields', read', named⟩ := Option.bind_eq_some_iff.mp tried
    obtain rfl := Form.eq_of_read? read read'
    rw [read] at read'
    cases read'
    exact named.symm

/-- A text that has none of the forms is no date in any order. -/
theorem readIn?_eq_none {pivot : Nat} {text : List Char}
    (unread : ∀ form : Form, form.read? pivot text = none) (forms : List Form) :
    readIn? pivot forms text = none :=
  List.findSome?_eq_none_iff.mpr fun form _ => by rw [unread form, Option.bind_none]

/-- The order in which the forms are tried does not matter. A text has one of them at most, and if
this one names no moment then none of the others gives the text another meaning. -/
theorem readIn?_eq_of_perm (pivot : Nat) (text : List Char) :
    (∀ form form' : Form, (form.read? pivot text).isSome → (form'.read? pivot text).isSome →
        form = form') ∧
      ∀ forms, forms.Perm Form.all → readIn? pivot forms text = read? pivot text ∧
        ∀ (form : Form) (fields : Written), form.read? pivot text = some fields →
          readIn? pivot forms text = fields.moment? := by
  refine ⟨?_, fun forms perm => ?_⟩
  · intro form form' isRead isRead'
    obtain ⟨fields, read⟩ := Option.isSome_iff_exists.mp isRead
    obtain ⟨fields', read'⟩ := Option.isSome_iff_exists.mp isRead'
    exact Form.eq_of_read? read read'
  have decides (form : Form) (fields : Written) (read : form.read? pivot text = some fields) :
      readIn? pivot forms text = fields.moment? :=
    readIn?_eq_of_read? read (perm.mem_iff.mpr form.mem_all)
  refine ⟨?_, decides⟩
  by_cases has : ∃ (form : Form) (fields : Written), form.read? pivot text = some fields
  · obtain ⟨form, fields, read⟩ := has
    rw [decides form fields read, read?, readIn?_eq_of_read? read form.mem_all]
  · have unread (form : Form) : form.read? pivot text = none :=
      Option.eq_none_iff_forall_ne_some.mpr fun fields read => has ⟨form, fields, read⟩
    rw [read?, readIn?_eq_none unread, readIn?_eq_none unread]

/-- The thirtieth of February is no date, from whichever end the forms are tried. -/
theorem readIn?_eq_of_perm_no_day :
    Form.all.reverse.Perm Form.all ∧
      readIn? 69 Form.all.reverse "Sun, 30 Feb 1994 08:49:37 +0100".toList = none ∧
      readIn? 69 Form.all.reverse "Sun Nov  6 08:49:37 1994".toList =
        read? 69 "Sun Nov  6 08:49:37 1994".toList := by
  have perm : Form.all.reverse.Perm Form.all := List.reverse_perm Form.all
  have noDay := (readIn?_eq_of_perm 69 "Sun, 30 Feb 1994 08:49:37 +0100".toList).2 _ perm
  refine ⟨perm, ?_, ((readIn?_eq_of_perm 69 _).2 _ perm).1⟩
  rw [noDay.2 .rfc1123Offset ⟨1994, 2, 30, 8, 49, 37, 60⟩ (by decide)]
  decide

/-! ## All forms -/

/-- The forms may be tried in any order, since at most one of them is spelled. -/
theorem readIn?_eq_some_iff {pivot : Nat} (pivotBound : pivot ≤ 100) (forms : List Form)
    (text : List Char) (moment : Moment) :
    readIn? pivot forms text = some moment ↔
      ∃ form ∈ forms, ∃ fields, Spelled pivot form text fields ∧ fields.moment? = some moment := by
  constructor
  · intro result
    obtain ⟨form, member, tried⟩ := List.exists_of_findSome?_eq_some result
    obtain ⟨fields, read, named⟩ := Option.bind_eq_some_iff.mp tried
    exact ⟨form, member, fields, (form.read?_eq_some_iff pivotBound text fields).mp read, named⟩
  · rintro ⟨form, member, fields, spelled, named⟩
    have read := (form.read?_eq_some_iff pivotBound text fields).mpr spelled
    rw [readIn?_eq_of_read? read member, named]

/-- A text is read as a moment exactly when some form spells fields that name its second. -/
theorem read?_eq_some_iff {pivot : Nat} (pivotBound : pivot ≤ 100) (text : List Char)
    (moment : Moment) :
    read? pivot text = some moment ↔ ∃ form fields, Spelled pivot form text fields ∧
      fields.IsReal ∧ moment.offset? = some .utc ∧ moment.instant = fields.instant := by
  rw [read?, readIn?_eq_some_iff pivotBound]
  simp only [Form.mem_all, true_and, Written.moment?_eq_some_iff]

/-- A text is a date exactly when it is spelled in one of the forms with the fields of a real day
and time. It then names the moment in UTC, to the second, at the instant of those fields, whatever
its weekday and the name of its zone; a year of two digits is the only one in the window. -/
theorem isSome_read?_iff_spelled (pivot : Nat) (pivotBound : pivot ≤ 100) (text : List Char) :
    ((read? pivot text).isSome ↔ ∃ form fields, Spelled pivot form text fields ∧ fields.IsReal) ∧
      (∀ form fields, Spelled pivot form text fields → fields.IsReal →
        ∃ moment, read? pivot text = some moment ∧ moment.offset? = some .utc ∧
          moment.clock.micro = 0 ∧ moment.instant = fields.instant) ∧
      ∀ short < 100, ∃! year, IsYearInWindow pivot short year := by
  refine ⟨?_, ?_, ?_⟩
  · simp only [Option.isSome_iff_exists, read?_eq_some_iff pivotBound]
    constructor
    · rintro ⟨moment, form, fields, spelled, real, -⟩
      exact ⟨form, fields, spelled, real⟩
    · rintro ⟨form, fields, spelled, real⟩
      obtain ⟨moment, utc, instant⟩ := real.exists_moment
      exact ⟨moment, form, fields, spelled, real, utc, instant⟩
  · intro form fields spelled real
    obtain ⟨moment, utc, instant⟩ := real.exists_moment
    refine ⟨moment, ?_, utc, ?_, instant⟩
    · exact (read?_eq_some_iff pivotBound text moment).mpr
        ⟨form, fields, spelled, real, utc, instant⟩
    · have micro := Moment.micro_of_utc utc
      rw [instant, fields.instant_emod] at micro
      omega
  · intro short bound
    refine ⟨fullYear pivot short, (fullYear_eq_iff pivotBound bound _).mp rfl, ?_⟩
    intro year window
    exact ((fullYear_eq_iff pivotBound bound year).mpr window).symm

theorem isSome_read?_iff_spelled_obsolete : 69 ≤ 100 ∧
    ∃ moment, read? 69 "sunday, 6-NOV-94 08:49:37 est".toList = some moment ∧
      moment.offset? = some .utc ∧ moment.clock.micro = 0 ∧
        moment.instant = Written.instant ⟨1994, 11, 6, 8, 49, 37, 0⟩ := by
  have spelled : Spelled 69 .rfc850 "sunday, 6-NOV-94 08:49:37 est".toList
      ⟨1994, 11, 6, 8, 49, 37, 0⟩ :=
    (Form.read?_eq_some_iff (by decide) .rfc850 _ _).mp (by decide)
  have real : Written.IsReal ⟨1994, 11, 6, 8, 49, 37, 0⟩ :=
    ⟨by decide, by decide, by decide, by unfold InCalendar; decide⟩
  exact ⟨by decide, (isSome_read?_iff_spelled 69 (by decide) _).2.1 .rfc850 _ spelled real⟩

end TypedHeaders.HttpDate
