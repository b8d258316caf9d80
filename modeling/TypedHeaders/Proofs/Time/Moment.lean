import TypedHeaders.Proofs.Time.Calendar
import TypedHeaders.Time.Moment

/-! # Instants of moments

A moment in UTC is determined by its instant, so reading a moment in UTC is the same as looking for
the moment in UTC that lies at its instant. The instants that have such a moment are those from the
first microsecond of the calendar up to its end.
-/

namespace TypedHeaders

def InCalendar (instant : Int) : Prop := 0 ≤ instant ∧ instant < daysInCalendar * microsPerDay

namespace Clock

/-- Four numbers make at most one time of day, the one with these fields. -/
theorem ofFields?_eq_some_iff (hour minute second micro : Nat) (clock : Clock) :
    ofFields? hour minute second micro = some clock ↔
      clock.hour = hour ∧ clock.minute = minute ∧ clock.second = second ∧ clock.micro = micro := by
  obtain ⟨hour', minute', second', micro', inRange⟩ := clock
  unfold ofFields?
  constructor
  · intro found
    split at found
    · cases found
      exact ⟨rfl, rfl, rfl, rfl⟩
    · cases found
  · rintro ⟨rfl, rfl, rfl, rfl⟩
    simp only [inRange, and_self, ↓reduceDIte]

theorem micros_lt (clock : Clock) : clock.micros < microsPerDay := by
  obtain ⟨hour, minute, second, micro⟩ := clock.inRange
  simp only [micros, microsPerDay, microsPerSecond] at *
  omega

/-- A time of day is made from the microseconds since midnight it stands for. -/
theorem ofMicros?_eq_some_iff (elapsed : Nat) (clock : Clock) :
    ofMicros? elapsed = some clock ↔ clock.micros = elapsed := by
  obtain ⟨hour, minute, second, micro⟩ := clock.inRange
  simp only [ofMicros?, ofFields?_eq_some_iff, micros, microsPerSecond] at *
  omega

/-- No two times of day are as far from midnight. -/
theorem micros_injective {first second : Clock} (same : first.micros = second.micros) :
    first = second := by
  have found := (ofMicros?_eq_some_iff _ _).mpr same
  rw [(ofMicros?_eq_some_iff _ second).mpr rfl] at found
  exact (Option.some.inj found).symm

theorem exists_micros_eq (elapsed : Nat) (inDay : elapsed < microsPerDay) :
    ∃ clock : Clock, clock.micros = elapsed := by
  have inRange : elapsed / microsPerSecond / 3600 < 24 ∧ elapsed / microsPerSecond / 60 % 60 < 60 ∧
      elapsed / microsPerSecond % 60 < 60 ∧ elapsed % microsPerSecond < microsPerSecond := by
    simp only [microsPerDay, microsPerSecond] at *
    omega
  refine ⟨⟨_, _, _, _, inRange⟩, ?_⟩
  simp only [micros, microsPerSecond]
  omega

end Clock

namespace Offset

theorem ofMicros?_eq_some_iff (micros : Int) (offset : Offset) :
    ofMicros? micros = some offset ↔ offset.micros = micros := by
  obtain ⟨micros', inRange⟩ := offset
  unfold ofMicros?
  constructor
  · intro found
    split at found
    · cases found
      rfl
    · cases found
  · rintro rfl
    simp only [inRange, and_self, ↓reduceDIte]

end Offset

namespace Moment

/-- Local readings are told apart by their microseconds. -/
theorem localMicros_split (moment : Moment) :
    moment.localMicros / microsPerDay = moment.date.ordinal ∧
      moment.localMicros % microsPerDay = moment.clock.micros := by
  have inDay := moment.clock.micros_lt
  simp only [localMicros, microsPerDay, microsPerSecond] at *
  omega

theorem instant_of_utc {moment : Moment} (utc : moment.offset? = some .utc) :
    moment.instant = moment.localMicros := by
  simp only [instant, utc, Option.elim_some, Offset.utc, Int.sub_zero]

theorem instant_of_naive {moment : Moment} (naive : moment.offset? = none) :
    moment.instant = moment.localMicros := by
  simp only [instant, naive, Option.elim_none, Int.sub_zero]

theorem micro_of_utc {moment : Moment} (utc : moment.offset? = some .utc) :
    (moment.clock.micro : Int) = moment.instant % microsPerSecond := by
  obtain ⟨-, -, -, micro⟩ := moment.clock.inRange
  rw [instant_of_utc utc]
  simp only [localMicros, Clock.micros, microsPerDay, microsPerSecond] at *
  omega

/-- The moment in UTC at an instant is the only one that lies there. -/
theorem ofInstant?_eq_some_iff (instant : Int) (moment : Moment) :
    ofInstant? instant = some moment ↔ moment.offset? = some .utc ∧ moment.instant = instant := by
  obtain ⟨day, time⟩ := moment.localMicros_split
  rcases Int.lt_or_le instant 0 with negative | positive
  · constructor
    · intro found
      simp [ofInstant?, negative] at found
    · rintro ⟨utc, rfl⟩
      rw [instant_of_utc utc] at negative
      omega
  · obtain ⟨elapsed, rfl⟩ := Int.eq_ofNat_of_zero_le positive
    have eq : ofInstant? elapsed = some moment ↔ ∃ date clock,
        CivilDate.ofOrdinal? (elapsed / microsPerDay) = some date ∧
          Clock.ofMicros? (elapsed % microsPerDay) = some clock ∧
          (⟨date, clock, some .utc⟩ : Moment) = moment := by
      simp [ofInstant?, Option.bind_eq_some_iff]
    simp only [eq, CivilDate.ofOrdinal?_eq_some_iff, Clock.ofMicros?_eq_some_iff]
    constructor
    · rintro ⟨date, clock, dateAt, clockAt, rfl⟩
      refine ⟨rfl, ?_⟩
      rw [instant_of_utc rfl, localMicros, dateAt, clockAt, Nat.div_add_mod']
    · rintro ⟨utc, at'⟩
      rw [instant_of_utc utc, Int.natCast_inj] at at'
      subst at'
      exact ⟨moment.date, moment.clock, day.symm, time.symm, by rw [← utc]⟩

/-- The local reading of a moment lies in the calendar, wherever its instant lies. -/
theorem inCalendar_localMicros (moment : Moment) : InCalendar moment.localMicros := by
  have inDay := moment.clock.micros_lt
  have reached := moment.date.ordinal_lt
  simp only [InCalendar, localMicros, daysInCalendar, microsPerDay, microsPerSecond] at *
  omega

/-- The instants with a UTC moment are those of the calendar. -/
theorem ofInstant?_isSome_iff (instant : Int) : (ofInstant? instant).isSome ↔ InCalendar instant := by
  simp only [Option.isSome_iff_exists, ofInstant?_eq_some_iff]
  constructor
  · rintro ⟨moment, utc, rfl⟩
    rw [instant_of_utc utc]
    exact moment.inCalendar_localMicros
  · rintro ⟨positive, reached⟩
    obtain ⟨elapsed, rfl⟩ := Int.eq_ofNat_of_zero_le positive
    obtain ⟨date, dateAt⟩ := CivilDate.exists_ordinal_eq (elapsed / microsPerDay) (by
      simp only [daysInCalendar, microsPerDay, microsPerSecond] at *
      omega)
    obtain ⟨clock, clockAt⟩ := Clock.exists_micros_eq (elapsed % microsPerDay)
      (Nat.mod_lt _ (by decide))
    refine ⟨⟨date, clock, some .utc⟩, rfl, ?_⟩
    rw [instant_of_utc rfl, localMicros, dateAt, clockAt, Nat.div_add_mod']

/-- Two moments in UTC at one instant are the same. -/
theorem eq_of_utc_of_instant {first second : Moment} (firstUtc : first.offset? = some .utc)
    (secondUtc : second.offset? = some .utc) (same : first.instant = second.instant) :
    first = second := by
  have found := (ofInstant?_eq_some_iff second.instant first).mpr ⟨firstUtc, same⟩
  rw [(ofInstant?_eq_some_iff second.instant second).mpr ⟨secondUtc, rfl⟩] at found
  exact (Option.some.inj found).symm

/-- Moments without a zone at one instant are the same. -/
theorem eq_of_naive_of_instant {first second : Moment} (naive : first.offset? = none)
    (naive' : second.offset? = none) (same : first.instant = second.instant) : first = second := by
  rw [instant_of_naive naive, instant_of_naive naive', Int.natCast_inj] at same
  obtain ⟨day, time⟩ := first.localMicros_split
  obtain ⟨day', time'⟩ := second.localMicros_split
  rw [same] at day time
  have date := CivilDate.ordinal_injective (day.symm.trans day')
  have clock := Clock.micros_injective (time.symm.trans time')
  cases first
  cases second
  rw [Moment.mk.injEq]
  exact ⟨date, clock, naive.trans naive'.symm⟩

/-- A reading in UTC lies at the same instant. -/
theorem instant_of_toUtc? {moment reading : Moment} (read : moment.toUtc? = some reading) :
    reading.instant = moment.instant ∧ reading.instant = reading.localMicros := by
  unfold toUtc? at read
  split at read
  · rename_i naive
    cases read
    exact ⟨rfl, instant_of_naive naive⟩
  · obtain ⟨utc, same⟩ := (ofInstant?_eq_some_iff _ _).mp read
    exact ⟨same, instant_of_utc utc⟩

/-- A moment in UTC stays as it is. -/
theorem toUtc?_of_utc {moment : Moment} (utc : moment.offset? = some .utc) :
    moment.toUtc? = some moment := by
  simp only [toUtc?, utc, ofInstant?_eq_some_iff, and_self]

/-- A moment has a reading in UTC if the calendar reaches its instant. -/
theorem isSome_toUtc?_iff (moment : Moment) : moment.toUtc?.isSome ↔ InCalendar moment.instant := by
  unfold toUtc?
  split
  · rename_i naive
    rw [instant_of_naive naive]
    exact iff_of_true rfl moment.inCalendar_localMicros
  · exact ofInstant?_isSome_iff _

/-- The moment in UTC at the start of the second that a moment lies in. -/
def second? (moment : Moment) : Option Moment :=
  ofInstant? (moment.instant / microsPerSecond * microsPerSecond)

/-- The second of a moment is the UTC moment that starts it. -/
theorem second?_eq_some_iff (moment start : Moment) :
    moment.second? = some start ↔ start.offset? = some .utc ∧
      start.instant = moment.instant / microsPerSecond * microsPerSecond :=
  ofInstant?_eq_some_iff _ _

end Moment

end TypedHeaders
