import Mathlib.Algebra.Ring.Nat
import TypedHeaders.Time.Calendar

/-! # Days and their positions

The position of a day in the calendar determines the day. A year is recovered by peeling off
periods of 400, 100, 4 and 1 years, of which only the last ones of a period may be a day longer or
shorter than the others, and a month by peeling off the months before it.

`CivilDate.ofOrdinal?_eq_some_iff` states both directions, and `CivilDate.ofOrdinal?_isSome_iff`
gives the number of days that the calendar has.
-/

namespace TypedHeaders

def daysInYear (year : Nat) : Nat := if isLeapYear year then 366 else 365

/-- The days of the calendar, which ends with the year 9999. -/
def daysInCalendar : Nat := 3652059

/-- The months of a year add up to its days. -/
theorem sum_monthLengths (year : Nat) : (monthLengths year).sum = daysInYear year := by
  unfold monthLengths daysInYear
  cases isLeapYear year <;> rfl

private theorem length_monthLengths (year : Nat) : (monthLengths year).length = 12 := rfl

theorem daysBeforeMonth_eq (year month : Nat) :
    daysBeforeMonth year month = ((monthLengths year).take (month - 1)).sum :=
  List.sum_eq_foldr.symm

theorem isLeapYear_iff (year : Nat) :
    isLeapYear year = true ↔ year % 4 = 0 ∧ (year % 100 ≠ 0 ∨ year % 400 = 0) := by
  simp [isLeapYear]

/-- A leap year ends a cycle of four years, but not a century, save the last one of an era. -/
private theorem isLeapYear_periods (era century cycle year : Nat) (inEra : century < 4)
    (inCentury : cycle < 25) (inCycle : year < 4) :
    isLeapYear (era * 400 + century * 100 + cycle * 4 + year + 1) = true ↔
      year = 3 ∧ (cycle = 24 → century = 3) := by
  rw [isLeapYear_iff]
  omega

private theorem daysBeforeYear_periods (era century cycle year : Nat) (inEra : century < 4)
    (inCentury : cycle < 25) (inCycle : year < 4) :
    daysBeforeYear (era * 400 + century * 100 + cycle * 4 + year + 1) =
      era * 146097 + century * 36524 + cycle * 1461 + year * 365 := by
  simp only [daysBeforeYear]
  omega

private theorem quotient_succ (past period : Nat) :
    (past + 1) / period = past / period + if (past + 1) % period = 0 then 1 else 0 := by
  simp only [Nat.succ_div, Nat.dvd_iff_mod_eq_zero]

/-- Each year starts as many days later as the year before it is long. -/
theorem daysBeforeYear_succ (year : Nat) (positive : 1 ≤ year) :
    daysBeforeYear (year + 1) = daysBeforeYear year + daysInYear year := by
  obtain ⟨past, rfl⟩ := Nat.exists_eq_add_of_le' positive
  have centuries : past / 100 ≤ past / 4 := Nat.div_le_div_left (by omega) (by omega)
  simp only [daysBeforeYear, daysInYear, Nat.add_sub_cancel, quotient_succ, isLeapYear_iff]
  rcases show (past + 1) % 4 ≠ 0 ∧ (past + 1) % 100 ≠ 0 ∧ (past + 1) % 400 ≠ 0 ∨
      (past + 1) % 4 = 0 ∧ (past + 1) % 100 ≠ 0 ∧ (past + 1) % 400 ≠ 0 ∨
      (past + 1) % 4 = 0 ∧ (past + 1) % 100 = 0 ∧ (past + 1) % 400 ≠ 0 ∨
      (past + 1) % 4 = 0 ∧ (past + 1) % 100 = 0 ∧ (past + 1) % 400 = 0 by omega
    with ⟨four, hundred, era⟩ | ⟨four, hundred, era⟩ | ⟨four, hundred, era⟩ | ⟨four, hundred, era⟩
  all_goals
    simp only [four, hundred, era, ne_eq, not_true_eq_false, not_false_eq_true, or_self, or_true,
      or_false, and_self, and_true, and_false, ↓reduceIte]
    omega

private theorem daysBeforeYear_mono {first second : Nat} (le : first ≤ second) :
    daysBeforeYear first ≤ daysBeforeYear second := by
  simp only [daysBeforeYear]
  rcases Nat.eq_or_lt_of_le le with rfl | lt
  · exact Nat.le_refl _
  · omega

namespace CivilDate

/-- The year of a position, with the place of the position in the year. -/
theorem yearOfOrdinal_spec (ordinal year day : Nat) (eq : yearOfOrdinal ordinal = (year, day)) :
    1 ≤ year ∧ daysBeforeYear year + day = ordinal ∧ day < daysInYear year := by
  simp only [yearOfOrdinal, Prod.mk.injEq] at eq
  obtain ⟨rfl, rfl⟩ := eq
  generalize hera : ordinal / 146097 = era
  generalize hcentury : min (ordinal % 146097 / 36524) 3 = century
  generalize hrest : ordinal % 146097 - century * 36524 = rest
  generalize hcycle : rest / 1461 = cycle
  generalize hyear : min (rest % 1461 / 365) 3 = year
  have inEra : century < 4 := by omega
  have inCentury : cycle < 25 := by omega
  have inCycle : year < 4 := by omega
  refine ⟨by omega, ?_, ?_⟩
  · rw [daysBeforeYear_periods era century cycle year inEra inCentury inCycle]
    omega
  · have leap := isLeapYear_periods era century cycle year inEra inCentury inCycle
    unfold daysInYear
    split
    · omega
    · rename_i common
      rw [leap] at common
      omega

/-- A place in a year is found again in the same year. -/
theorem yearOfOrdinal_daysBeforeYear (year day : Nat) (positive : 1 ≤ year)
    (inYear : day < daysInYear year) :
    yearOfOrdinal (daysBeforeYear year + day) = (year, day) := by
  obtain ⟨found, place, eq⟩ : ∃ found place,
      yearOfOrdinal (daysBeforeYear year + day) = (found, place) := ⟨_, _, rfl⟩
  obtain ⟨foundPositive, same, bound⟩ := yearOfOrdinal_spec _ found place eq
  have next := daysBeforeYear_succ year positive
  have foundNext := daysBeforeYear_succ found foundPositive
  -- Another year would begin after the place, or end before it.
  have notLater : ¬ year + 1 ≤ found := by
    intro later
    have := daysBeforeYear_mono later
    omega
  have notEarlier : ¬ found + 1 ≤ year := by
    intro earlier
    have := daysBeforeYear_mono earlier
    omega
  obtain rfl : found = year := by omega
  rw [eq, Prod.mk.injEq]
  exact ⟨rfl, by omega⟩

/-- Peeling off whole months leaves a place within a month. -/
theorem monthOfDay_spec (first place : Nat) (lengths : List Nat) (inYear : place < lengths.sum) :
    ∃ skipped day length, monthOfDay first place lengths = (first + skipped, day) ∧
      lengths[skipped]? = some length ∧ day < length ∧ (lengths.take skipped).sum + day = place := by
  induction lengths generalizing first place with
  | nil => simp at inYear
  | cons length rest ih =>
    by_cases here : place < length
    · exact ⟨0, place, length, by simp [monthOfDay, here], rfl, here, by simp⟩
    · have later : place - length < rest.sum := by
        simp only [List.sum_cons] at inYear
        omega
      obtain ⟨skipped, day, found, eq, at', bound, sum⟩ := ih (first + 1) (place - length) later
      refine ⟨skipped + 1, day, found, ?_, at', bound, ?_⟩
      · simp only [monthOfDay, here, ↓reduceIte, eq, Prod.mk.injEq, and_true]
        omega
      · simp only [List.take_succ_cons, List.sum_cons]
        omega

/-- A place within a month is found again in the same month. -/
theorem monthOfDay_sum_take (first skipped day length : Nat) (lengths : List Nat)
    (at' : lengths[skipped]? = some length) (inMonth : day < length) :
    monthOfDay first ((lengths.take skipped).sum + day) lengths = (first + skipped, day) := by
  induction lengths generalizing first skipped with
  | nil => simp at at'
  | cons head rest ih =>
    cases skipped with
    | zero =>
      obtain rfl : head = length := by simpa using at'
      simp [monthOfDay, inMonth]
    | succ skipped =>
      have skip : ¬ head + (rest.take skipped).sum + day < head := by omega
      have shift : head + (rest.take skipped).sum + day - head = (rest.take skipped).sum + day := by
        omega
      simp only [List.take_succ_cons, List.sum_cons, monthOfDay, skip, ↓reduceIte, shift]
      rw [ih (first + 1) skipped (by simpa using at'), Prod.mk.injEq]
      exact ⟨by omega, rfl⟩

/-- A place in a month comes before the end of the year. -/
private theorem sum_take_lt (lengths : List Nat) (skipped day length : Nat)
    (at' : lengths[skipped]? = some length) (inMonth : day < length) :
    (lengths.take skipped).sum + day < lengths.sum := by
  induction lengths generalizing skipped with
  | nil => simp at at'
  | cons head rest ih =>
    cases skipped with
    | zero =>
      obtain rfl : head = length := by simpa using at'
      simp only [List.take_zero, List.sum_nil, List.sum_cons]
      omega
    | succ skipped =>
      have := ih skipped (by simpa using at')
      simp only [List.take_succ_cons, List.sum_cons]
      omega

/-- Three numbers make at most one date, the one with these fields. -/
theorem ofFields?_eq_some_iff (year month day : Nat) (date : CivilDate) :
    ofFields? year month day = some date ↔
      date.year = year ∧ date.month = month ∧ date.day = day := by
  obtain ⟨year', month', day', civil⟩ := date
  unfold ofFields?
  constructor
  · intro found
    split at found
    · cases found
      exact ⟨rfl, rfl, rfl⟩
    · cases found
  · rintro ⟨rfl, rfl, rfl⟩
    simp only [civil, ↓reduceDIte]

theorem getElem?_monthLengths (date : CivilDate) :
    (monthLengths date.year)[date.month - 1]? = some (daysInMonth date.year date.month) := by
  obtain ⟨-, -, first, last, -, -⟩ := date.isCivil
  have inYear : date.month - 1 < (monthLengths date.year).length := by
    rw [length_monthLengths]
    omega
  have notZero : date.month ≠ 0 := by omega
  simp only [daysInMonth, notZero, ↓reduceIte, List.getD_eq_getElem?_getD,
    List.getElem?_eq_getElem inYear, Option.getD_some]

private theorem day_pred_lt (date : CivilDate) :
    date.day - 1 < daysInMonth date.year date.month := by
  obtain ⟨-, -, -, -, first, last⟩ := date.isCivil
  omega

/-- The place of a day in its year. -/
theorem dayOfYear_lt (date : CivilDate) :
    daysBeforeMonth date.year date.month + (date.day - 1) < daysInYear date.year := by
  rw [← sum_monthLengths]
  exact sum_take_lt _ _ _ _ date.getElem?_monthLengths date.day_pred_lt

/-- A date is found again from its ordinal. -/
theorem ofOrdinal?_ordinal (date : CivilDate) : ofOrdinal? date.ordinal = some date := by
  obtain ⟨firstYear, -, firstMonth, -, firstDay, -⟩ := date.isCivil
  have inYear := yearOfOrdinal_daysBeforeYear date.year _ firstYear date.dayOfYear_lt
  have inMonth := monthOfDay_sum_take 1 _ _ _ _ date.getElem?_monthLengths date.day_pred_lt
  rw [← Nat.add_assoc] at inYear
  simp only [ofOrdinal?, ordinal, inYear, ofFields?_eq_some_iff]
  simp only [daysBeforeMonth_eq, inMonth, true_and]
  omega

/-- No two dates have one ordinal. -/
theorem ordinal_injective {first second : CivilDate} (same : first.ordinal = second.ordinal) :
    first = second := by
  have found := first.ofOrdinal?_ordinal
  rw [same, second.ofOrdinal?_ordinal] at found
  exact (Option.some.inj found).symm

/-- Ordinals end with the calendar. -/
theorem ordinal_lt (date : CivilDate) : date.ordinal < daysInCalendar := by
  obtain ⟨firstYear, lastYear, -⟩ := date.isCivil
  have inYear := date.dayOfYear_lt
  have next := daysBeforeYear_succ date.year firstYear
  have last : daysBeforeYear (date.year + 1) ≤ daysInCalendar :=
    daysBeforeYear_mono (show date.year + 1 ≤ 10000 by omega)
  unfold ordinal
  omega

/-- Every position before the end of the calendar has a day. -/
theorem exists_ordinal_eq (position : Nat) (inCalendar : position < daysInCalendar) :
    ∃ date : CivilDate, date.ordinal = position := by
  obtain ⟨year, place, eq⟩ : ∃ year place, yearOfOrdinal position = (year, place) := ⟨_, _, rfl⟩
  obtain ⟨firstYear, sum, inYear⟩ := yearOfOrdinal_spec position year place eq
  have lastYear : ¬ 10000 ≤ year := by
    intro later
    have : daysInCalendar ≤ daysBeforeYear year := daysBeforeYear_mono later
    omega
  rw [← sum_monthLengths] at inYear
  obtain ⟨skipped, day, length, -, found, inMonth, place_eq⟩ := monthOfDay_spec 1 place _ inYear
  have lastMonth : skipped < 12 := by
    simpa only [length_monthLengths] using (List.getElem?_eq_some_iff.mp found).1
  have civil : IsCivil year (skipped + 1) (day + 1) := by
    refine ⟨firstYear, by omega, by omega, by omega, by omega, ?_⟩
    simp only [daysInMonth, Nat.add_sub_cancel, Nat.add_eq_zero_iff, Nat.one_ne_zero, and_false,
      ↓reduceIte, List.getD_eq_getElem?_getD, found, Option.getD_some]
    omega
  refine ⟨⟨year, skipped + 1, day + 1, civil⟩, ?_⟩
  simp only [ordinal, daysBeforeMonth_eq, Nat.add_sub_cancel]
  omega

/-- A position has the one day that lies there. -/
theorem ofOrdinal?_eq_some_iff (position : Nat) (date : CivilDate) :
    ofOrdinal? position = some date ↔ date.ordinal = position := by
  constructor
  · intro found
    obtain ⟨year, place, eq⟩ : ∃ year place, yearOfOrdinal position = (year, place) := ⟨_, _, rfl⟩
    obtain ⟨firstYear, sum, inYear⟩ := yearOfOrdinal_spec position year place eq
    rw [← sum_monthLengths] at inYear
    obtain ⟨skipped, day, length, split, -, inMonth, place_eq⟩ := monthOfDay_spec 1 place _ inYear
    simp only [ofOrdinal?, eq, split, ofFields?_eq_some_iff] at found
    obtain ⟨rfl, month, day⟩ := found
    simp only [ordinal, daysBeforeMonth_eq, month, day, Nat.add_sub_cancel, Nat.add_sub_cancel_left]
    omega
  · rintro rfl
    exact date.ofOrdinal?_ordinal

/-- The calendar has a day at every position before its end and at no other. -/
theorem ofOrdinal?_isSome_iff (position : Nat) :
    (ofOrdinal? position).isSome ↔ position < daysInCalendar := by
  simp only [Option.isSome_iff_exists, ofOrdinal?_eq_some_iff]
  constructor
  · rintro ⟨date, rfl⟩
    exact date.ordinal_lt
  · exact exists_ordinal_eq position

end CivilDate

end TypedHeaders
