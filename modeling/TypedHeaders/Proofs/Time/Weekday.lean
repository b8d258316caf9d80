import Mathlib.Tactic.IntervalCases
import TypedHeaders.Proofs.Time.Calendar

/-! # Days of the week

From each day of the calendar to the next the day of the week goes on by one, over the ends of
months, leap years and centuries. Zeller's congruence says which day of the week it is without a
count of days, from the year, the month and the day alone.
-/

namespace TypedHeaders

/-- Zeller's congruence, with zero for Saturday. January and February count as the last months of
the year before. -/
def zeller (year month day : Nat) : Nat :=
  if month ≤ 2 then congruence (year - 1) (month + 12) else congruence year month
where
  /-- The congruence for months from March on. -/
  congruence (year month : Nat) : Nat :=
    (day + 13 * (month + 1) / 5 + year % 100 + year % 100 / 4 + year / 100 / 4 +
      5 * (year / 100)) % 7

namespace CivilDate

/-- The next day of the month, if there is one, or the first day of the next month of the year, or
that of the next year. -/
def tomorrow? (date : CivilDate) : Option CivilDate :=
  (ofFields? date.year date.month (date.day + 1)).or
    ((ofFields? date.year (date.month + 1) 1).or (ofFields? (date.year + 1) 1 1))

/-- The day so many days later, if the calendar reaches that far. -/
def later? : Nat → CivilDate → Option CivilDate
  | 0, date => some date
  | days + 1, date => date.tomorrow?.bind (later? days)

/-! ## From day to day -/

private theorem exists_ofFields? {year month day : Nat} (civil : IsCivil year month day) :
    ∃ date : CivilDate, ofFields? year month day = some date ∧
      date.ordinal = daysBeforeYear year + daysBeforeMonth year month + (day - 1) :=
  ⟨⟨year, month, day, civil⟩, dif_pos civil, rfl⟩

private theorem ofFields?_eq_none {year month day : Nat} (notCivil : ¬ IsCivil year month day) :
    ofFields? year month day = none := dif_neg notCivil

private theorem daysBeforeMonth_succ (date : CivilDate) :
    daysBeforeMonth date.year (date.month + 1) =
      daysBeforeMonth date.year date.month + daysInMonth date.year date.month := by
  obtain ⟨-, -, first, -⟩ := date.isCivil
  obtain ⟨month, eq⟩ := Nat.exists_eq_add_of_le' first
  have length := date.getElem?_monthLengths
  rw [eq] at length ⊢
  simp only [daysBeforeMonth_eq, Nat.add_sub_cancel] at length ⊢
  rw [List.take_add_one, length, List.sum_append, Option.toList_some, List.sum_singleton]

/-- The days of the year that precede the month after December are all its days. -/
theorem daysBeforeMonth_thirteen (year : Nat) : daysBeforeMonth year 13 = daysInYear year := by
  rw [daysBeforeMonth_eq, ← sum_monthLengths]
  rfl

private theorem daysInMonth_pos {year month : Nat} (first : 1 ≤ month) (last : month ≤ 12) :
    1 ≤ daysInMonth year month := by
  unfold daysInMonth monthLengths
  interval_cases month <;> first | decide | (cases isLeapYear year <;> decide)

/-- A date has the next ordinal tomorrow, except for the last day of the calendar. -/
theorem tomorrow?_cases (date : CivilDate) :
    (∃ next, date.tomorrow? = some next ∧ next.ordinal = date.ordinal + 1) ∨
      date.tomorrow? = none ∧ date.ordinal + 1 = daysInCalendar := by
  obtain ⟨firstYear, lastYear, firstMonth, lastMonth, firstDay, lastDay⟩ := date.isCivil
  have ordinal : date.ordinal + 1 =
      daysBeforeYear date.year + daysBeforeMonth date.year date.month + date.day := by
    rw [CivilDate.ordinal]
    omega
  rw [tomorrow?, ordinal]
  by_cases inMonth : date.day < daysInMonth date.year date.month
  · -- A day within the month.
    have civil : IsCivil date.year date.month (date.day + 1) :=
      ⟨firstYear, lastYear, firstMonth, lastMonth, Nat.le_add_left .., inMonth⟩
    obtain ⟨next, found, position⟩ := exists_ofFields? civil
    exact .inl ⟨next, by rw [found, Option.some_or], position⟩
  have monthEnds : daysInMonth date.year date.month = date.day := by omega
  have noNext : ¬ IsCivil date.year date.month (date.day + 1) := by
    rintro ⟨-, -, -, -, -, within⟩
    omega
  rw [ofFields?_eq_none noNext, Option.none_or, ← monthEnds, Nat.add_assoc,
    ← date.daysBeforeMonth_succ]
  by_cases inYear : date.month < 12
  · -- The end of a month within the year.
    have civil : IsCivil date.year (date.month + 1) 1 :=
      ⟨firstYear, lastYear, Nat.le_add_left .., inYear, Nat.le_refl _,
        daysInMonth_pos (Nat.le_add_left ..) inYear⟩
    obtain ⟨next, found, position⟩ := exists_ofFields? civil
    exact .inl ⟨next, by rw [found, Option.some_or], position⟩
  have december : date.month = 12 := by omega
  have noMonth : ¬ IsCivil date.year 13 1 := by
    rintro ⟨-, -, -, within, -⟩
    omega
  rw [december, ofFields?_eq_none noMonth, Option.none_or, daysBeforeMonth_thirteen,
    ← daysBeforeYear_succ date.year firstYear]
  by_cases inCalendar : date.year < 9999
  · -- The end of a year.
    have civil : IsCivil (date.year + 1) 1 1 :=
      ⟨Nat.le_add_left .., inCalendar, by decide, by decide, by decide,
        daysInMonth_pos (by decide) (by decide)⟩
    obtain ⟨next, found, position⟩ := exists_ofFields? civil
    exact .inl ⟨next, found, position⟩
  · -- The end of the calendar.
    have last : date.year = 9999 := by omega
    have noYear : ¬ IsCivil 10000 1 1 := by decide
    rw [last]
    exact .inr ⟨ofFields?_eq_none noYear, by decide⟩

/-- The day after is the one at the next position of the calendar. -/
theorem tomorrow?_eq_some_iff (date next : CivilDate) :
    date.tomorrow? = some next ↔ next.ordinal = date.ordinal + 1 := by
  rcases date.tomorrow?_cases with ⟨found, after, position⟩ | ⟨none, last⟩
  · rw [after, Option.some.injEq, ← position]
    exact ⟨fun same => same ▸ rfl, fun same => (ordinal_injective same).symm⟩
  · have bound := next.ordinal_lt
    rw [none]
    exact iff_of_false (by simp) (by omega)

/-- The date so many days later is the one whose ordinal is as much larger. -/
theorem later?_eq_some_iff (days : Nat) (date later : CivilDate) :
    date.later? days = some later ↔ later.ordinal = date.ordinal + days := by
  induction days generalizing date with
  | zero =>
    rw [later?, Option.some.injEq, Nat.add_zero]
    exact ⟨fun same => same ▸ rfl, fun same => (ordinal_injective same).symm⟩
  | succ days ih =>
    simp only [later?, Option.bind_eq_some_iff, tomorrow?_eq_some_iff, ih]
    constructor
    · rintro ⟨next, after, position⟩
      omega
    · intro position
      have reached := later.ordinal_lt
      obtain ⟨next, after⟩ := exists_ordinal_eq (date.ordinal + 1) (by omega)
      exact ⟨next, after, by omega⟩

/-- Weekdays move on by the days in between, modulo seven. -/
theorem weekday_later? {days : Nat} {date later : CivilDate}
    (after : date.later? days = some later) :
    later.weekday = (date.weekday + days) % 7 := by
  rw [weekday, weekday, (later?_eq_some_iff ..).mp after, Nat.mod_add_mod]

/-! ## Zeller's congruence -/

/-- What the congruence makes of a year are the days up to its end. -/
private theorem congruence_eq (day year month : Nat) :
    zeller.congruence day year month =
      (day + 13 * (month + 1) / 5 + daysBeforeYear (year + 1)) % 7 := by
  have fours : year / 4 = 25 * (year / 100) + year % 100 / 4 := by omega
  have eras : year / 400 = year / 100 / 4 := by omega
  simp only [zeller.congruence, daysBeforeYear, Nat.add_sub_cancel, fours, eras]
  omega

/-- From March on the months have the lengths that the congruence gives them. -/
private theorem daysBeforeMonth_of_march (year : Nat) {month : Nat} (march : 3 ≤ month)
    (last : month ≤ 12) :
    365 + daysBeforeMonth year month =
      daysInYear year + 28 * month + 13 * (month + 1) / 5 - 35 := by
  unfold daysBeforeMonth monthLengths daysInYear
  interval_cases month <;> cases isLeapYear year <;> decide

/-- Weekdays are those of Zeller's congruence, which counts from Saturday. -/
theorem weekday_eq_zeller (date : CivilDate) :
    date.weekday = (zeller date.year date.month date.day + 5) % 7 := by
  obtain ⟨firstYear, -, firstMonth, lastMonth, firstDay, -⟩ := date.isCivil
  rw [weekday, ordinal, zeller]
  split
  · rw [congruence_eq, Nat.sub_add_cancel firstYear]
    obtain january | february : date.month = 1 ∨ date.month = 2 := by omega
    · have months : daysBeforeMonth date.year 1 = 0 := rfl
      rw [january, months]
      omega
    · have months : daysBeforeMonth date.year 2 = 31 := rfl
      rw [february, months]
      omega
  · have march : 3 ≤ date.month := by omega
    have months := daysBeforeMonth_of_march date.year march lastMonth
    have next := daysBeforeYear_succ date.year firstYear
    rw [congruence_eq]
    omega

end CivilDate

end TypedHeaders
