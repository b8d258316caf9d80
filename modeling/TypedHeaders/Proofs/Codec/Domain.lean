import TypedHeaders.Proofs.Codec.RoundTrip

/-! # The values that codecs write

Each family writes certain values and refuses all others. A refusal says that the header cannot hold
the value, whatever shape the value has: truth where a number is wanted, a day without a time, a tag
of another header, a tag around a tagged value, or a date that leaves the calendar on its way to UTC.
A value in which a number of too many digits shows can be neither written nor quoted, and this alone is
said of it.

A value under a tag is written by the codec of what the tag stands for, so the domain of a codec with
tags is put together from the domains of dates and of numbers.
-/

namespace TypedHeaders

/-- The values that a header of a kind can hold. A date has to lie in the calendar when it is read in
UTC. The abstract kind holds no value. -/
inductive Kind.Holds : Kind → Value → Prop
  | integer {range : IntegerRange} {n : Int}
      (low : (if range.signed then -2 ^ range.bits else 0) ≤ n) (high : n ≤ 2 ^ range.bits - 1) :
      Holds (.integer range) (.integer n)
  | date {when : Moment} (reached : InCalendar when.instant) : Holds .date (.moment when)
  | past : Holds .expires .past
  | expiry {when : Moment} (reached : InCalendar when.instant) : Holds .expires (.moment when)
  | taggedExpiry {when : Moment} (reached : InCalendar when.instant) :
      Holds .expires (.tagged .expiresDate (.moment when))
  | retryDate {when : Moment} (reached : InCalendar when.instant) : Holds .retryAfter (.moment when)
  | taggedRetryDate {when : Moment} (reached : InCalendar when.instant) :
      Holds .retryAfter (.tagged .retryDate (.moment when))
  | retryDelay {n : Int} (low : 0 ≤ n) (high : n ≤ 2 ^ 63 - 1) : Holds .retryAfter (.integer n)
  | taggedRetryDelay {n : Int} (low : 0 ≤ n) (high : n ≤ 2 ^ 63 - 1) :
      Holds .retryAfter (.tagged .retryDelay (.integer n))

namespace Codec

/-- A field was written and the value was to be written, or the value was refused and rightly so, or
it cannot be printed. -/
inductive Settles (value : Value) (accepted : Prop) : Except Error Octets → Prop
  | written (data : Octets) (shows : value.isPrintable = true) (accepts : accepted) :
      Settles value accepted (.ok data)
  | refused (cause : InvalidValue) (shows : value.isPrintable = true) (refuses : ¬ accepted) :
      Settles value accepted (.error (.invalidValue cause))
  | unprinted (hidden : value.isPrintable = false) :
      Settles value accepted (.error (.badValue .tooManyDigits))

/-- Equivalent conditions settle the same outcome. -/
theorem Settles.congr {value : Value} {accepted accepted' : Prop} {outcome : Except Error Octets}
    (settles : Settles value accepted outcome) (same : accepted ↔ accepted') :
    Settles value accepted' outcome := by rwa [← propext same]

/-- A tag shows the value under it and no number besides. -/
theorem Settles.tagged {content : Value} {accepted : Prop} {outcome : Except Error Octets}
    (settles : Settles content accepted outcome) (tag : Tag) :
    Settles (.tagged tag content) accepted outcome := by
  cases settles with
  | written data shows accepts => exact .written data shows accepts
  | refused cause shows refuses => exact .refused cause shows refuses
  | unprinted hidden => exact .unprinted hidden

/-- What printing a value makes of an outcome that the value deserves if it can be printed. -/
theorem settles_printing {value : Value} {accepted : Prop} {outcome : Except Error Octets}
    (deserved : value.isPrintable = true → Settles value accepted outcome) :
    Settles value accepted (value.printing outcome) := by
  unfold Value.printing
  split
  · rename_i shows
    exact deserved shows
  · rename_i hidden
    exact .unprinted (by simpa using hidden)

private theorem settles_refuse {value : Value} {accepted : Prop} (refuses : ¬ accepted)
    (cause : InvalidValue) : Settles value accepted (refuse value cause) :=
  settles_printing fun shows => .refused cause shows refuses

/-! ## Numbers and dates -/

/-- A range with so many bits holds the integers between its two powers of two. -/
theorem contains_iff (range : IntegerRange) (n : Int) :
    range.contains n ↔
      (if range.signed then -2 ^ range.bits else 0) ≤ n ∧ n ≤ 2 ^ range.bits - 1 := by
  rw [IntegerRange.contains, Bool.and_eq_true, decide_eq_true_eq, decide_eq_true_eq]
  exact Iff.rfl

private theorem settles_encodeInteger (codec : Codec) (range : IntegerRange) (value : Value) :
    Settles value (∃ n, value = .integer n ∧ range.contains n)
      (codec.encodeInteger range value) := by
  unfold encodeInteger
  split
  · rename_i n
    split
    · rename_i contains
      exact settles_printing fun shows => .written _ shows ⟨n, rfl, contains⟩
    · rename_i outside
      refine settles_refuse ?_ _
      rintro ⟨_, ⟨⟩, contains⟩
      exact outside contains
  · rename_i noInteger
    refine settles_refuse ?_ _
    rintro ⟨n, rfl, -⟩
    exact noInteger n rfl

/-- A moment has a printed date when its instant lies in the calendar. -/
theorem isSome_write?_iff (when : Moment) :
    (HttpDate.write? when).isSome ↔ InCalendar when.instant := by
  rw [HttpDate.write?, Option.isSome_map, when.isSome_toUtc?_iff]

private theorem settles_encodeDate (value : Value) :
    Settles value (∃ when, value = .moment when ∧ InCalendar when.instant) (encodeDate value) := by
  unfold encodeDate
  split
  · rename_i when
    have reached := isSome_write?_iff when
    split
    · rename_i text write
      rw [write] at reached
      exact .written _ rfl ⟨when, rfl, reached.mp rfl⟩
    · rename_i unwritten
      rw [unwritten] at reached
      refine settles_refuse ?_ _
      rintro ⟨_, ⟨⟩, inCalendar⟩
      exact absurd (reached.mpr inCalendar) (by decide)
  · rename_i noMoment
    refine settles_refuse ?_ _
    rintro ⟨when, rfl, -⟩
    exact noMoment when rfl

/-! ## Values with tags -/

private theorem settles_encodeExpires (value : Value) :
    Settles value (Kind.expires.Holds value) (encodeExpires value) := by
  unfold encodeExpires
  split
  · exact .written _ rfl .past
  · apply ((settles_encodeDate _).tagged _).congr
    constructor
    · rintro ⟨when, rfl, reached⟩
      exact .taggedExpiry reached
    · intro holds
      cases holds with
      | taggedExpiry reached => exact ⟨_, rfl, reached⟩
  · rename_i notPast noTag
    apply (settles_encodeDate _).congr
    constructor
    · rintro ⟨when, rfl, reached⟩
      exact .expiry reached
    · intro holds
      cases holds with
      | past => exact (notPast rfl).elim
      | expiry reached => exact ⟨_, rfl, reached⟩
      | taggedExpiry => exact (noTag _ rfl).elim

/-- Retry-After writes a value when the date or the seconds branch its tag names can hold it. -/
theorem settles_encodeRetryAfter (value : Value) :
    Settles value (Kind.retryAfter.Holds value) (encodeRetryAfter value) := by
  unfold encodeRetryAfter
  split
  · apply ((settles_encodeDate _).tagged _).congr
    constructor
    · rintro ⟨when, rfl, reached⟩
      exact .taggedRetryDate reached
    · intro holds
      cases holds with
      | taggedRetryDate reached => exact ⟨_, rfl, reached⟩
  · apply ((settles_encodeInteger ..).tagged _).congr
    constructor
    · rintro ⟨n, rfl, contains⟩
      obtain ⟨low, high⟩ := contains_wordRange_iff.mp contains
      exact .taggedRetryDelay low high
    · intro holds
      cases holds with
      | taggedRetryDelay low high => exact ⟨_, rfl, contains_wordRange_iff.mpr ⟨low, high⟩⟩
  · apply (settles_encodeDate _).congr
    constructor
    · rintro ⟨when, ⟨⟩, reached⟩
      exact .retryDate reached
    · intro holds
      cases holds with
      | retryDate reached => exact ⟨_, rfl, reached⟩
  · -- What has neither tag and is no moment can only be taken as a number of seconds.
    rename_i noDateTag noDelayTag noMoment
    apply (settles_encodeInteger ..).congr
    constructor
    · rintro ⟨n, rfl, contains⟩
      obtain ⟨low, high⟩ := contains_wordRange_iff.mp contains
      exact .retryDelay low high
    · intro holds
      cases holds with
      | retryDate => exact (noMoment _ rfl).elim
      | taggedRetryDate => exact (noDateTag _ rfl).elim
      | retryDelay low high => exact ⟨_, rfl, contains_wordRange_iff.mpr ⟨low, high⟩⟩
      | taggedRetryDelay => exact (noDelayTag _ rfl).elim

/-! ## All codecs -/

/-- Every codec of a family settles the encoding of every value by what it holds. -/
theorem settles_encode {codec : Codec} (family : codec.kind ≠ .abstract) (value : Value) :
    Settles value (codec.kind.Holds value) (codec.encode value) := by
  unfold encode
  cases kind : codec.kind with
  | abstract => exact (family kind).elim
  | integer range =>
    apply (settles_encodeInteger codec range value).congr
    constructor
    · rintro ⟨n, rfl, contains⟩
      obtain ⟨low, high⟩ := (contains_iff range n).mp contains
      exact .integer low high
    · intro holds
      cases holds with
      | integer low high => exact ⟨_, rfl, (contains_iff range _).mpr ⟨low, high⟩⟩
  | date =>
    apply (settles_encodeDate value).congr
    constructor
    · rintro ⟨when, rfl, reached⟩
      exact .date reached
    · intro holds
      cases holds with
      | date reached => exact ⟨_, rfl, reached⟩
  | expires => exact settles_encodeExpires value
  | retryAfter => exact settles_encodeRetryAfter value

/-- Of the values that can be printed, a codec of any family writes exactly those that its header can
hold, and of every other one it says that the header cannot hold it. Of a value that cannot be printed
it says that a number in it has too many digits. -/
theorem encode_eq_ok_iff_holds (codec : Codec) (family : codec.kind ≠ .abstract) (value : Value) :
    (value.isPrintable = true →
      ((∃ data, codec.encode value = .ok data) ↔ codec.kind.Holds value) ∧
        (¬ codec.kind.Holds value → ∃ cause, codec.encode value = .error (.invalidValue cause))) ∧
      (value.isPrintable = false → codec.encode value = .error (.badValue .tooManyDigits)) := by
  have settles := settles_encode family value
  generalize codec.encode value = outcome at settles
  cases settles with
  | written data shows holds =>
    refine ⟨fun _ => ⟨⟨fun _ => holds, fun _ => ⟨data, rfl⟩⟩, fun refuses => (refuses holds).elim⟩,
      fun hidden => ?_⟩
    cases shows.symm.trans hidden
  | refused cause shows refuses =>
    refine ⟨fun _ => ⟨⟨?_, fun holds => (refuses holds).elim⟩, fun _ => ⟨cause, rfl⟩⟩,
      fun hidden => ?_⟩
    · rintro ⟨data, ⟨⟩⟩
    · cases shows.symm.trans hidden
  | unprinted hidden =>
    refine ⟨fun shows => ?_, fun _ => rfl⟩
    cases shows.symm.trans hidden

theorem encode_eq_ok_iff_holds_nested :
    (∃ data, Codec.retryAfter.encode (.tagged .retryDelay (.integer (2 ^ 63 - 1))) = .ok data) ∧
      ∃ cause, Codec.retryAfter.encode (.tagged .retryDelay (.tagged .retryDelay (.integer 1))) =
        .error (.invalidValue cause) := by
  have domain (value : Value) (shows : value.isPrintable = true) :=
    (encode_eq_ok_iff_holds .retryAfter (by decide) value).1 shows
  refine ⟨(domain _ (by decide)).1.mpr (.taggedRetryDelay (by decide) (by decide)),
    (domain _ (by decide)).2 ?_⟩
  intro holds
  cases holds

end Codec

end TypedHeaders
