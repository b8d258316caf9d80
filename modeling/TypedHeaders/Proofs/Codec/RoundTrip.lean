import Mathlib.Algebra.Ring.Int.Defs
import TypedHeaders.Codec.Decoding
import TypedHeaders.Codec.Encoding
import TypedHeaders.Proofs.HttpDate.Printing
import TypedHeaders.Proofs.Numeral

/-! # Reading what was written

A codec reads the field that it writes for a value as the normal form of that value: the same number,
the start of the same second in UTC, and the tag that the codec would have given. Every value that
was read is in normal form, so it is written and read again without change.

The two codecs with several kinds of values rest on the kinds not being confused: no numeral is a
date.
-/

namespace TypedHeaders

/-- An outcome whose message shows a value is reached when that value can be printed. -/
theorem Value.printing_eq_ok_iff {α : Type} {value : Value} {outcome : Except Error α} {result : α} :
    value.printing outcome = .ok result ↔ value.isPrintable = true ∧ outcome = .ok result := by
  unfold printing
  split <;> simp_all

/-- The integers that can be printed are those within the digit limit. -/
theorem Value.isPrintable_integer_iff {n : Int} :
    (Value.integer n).isPrintable = true ↔ digitCount n ≤ digitLimit := by
  rw [isPrintable, decide_eq_true_eq]

theorem Value.fieldText_ofAscii {text : List Char} (plain : IsPlainText text) :
    Value.fieldText (.octets (.ofAscii text)) = .ok (some (String.ofList text)) := by
  have ascii : ∀ c ∈ text, c.toNat < 128 := by
    intro c member
    have := plain c member
    omega
  simp only [fieldText, bytes, Except.map, Text.Utf8.decode?_ofAscii ascii, Option.map_some]

/-- No form of a date consists of digits alone. -/
theorem HttpDate.read?_eq_none_of_digits {pivot : Nat} (pivotBound : pivot ≤ 100) {text : List Char}
    (digits : ∀ c ∈ text, c.isDigit) : read? pivot text = none := by
  cases read : read? pivot text with
  | none => rfl
  | some moment =>
    obtain ⟨form, fields, spelled, -⟩ := (read?_eq_some_iff pivotBound text moment).mp read
    cases digits ' ' spelled.blank_mem

theorem HttpDate.defaultPivot_le : defaultPivot ≤ 100 := by decide

/-- The value that a codec gives back for a value that it can write. -/
def Kind.normal? (kind : Kind) (value : Value) : Option Value :=
  match kind, value with
  | .integer _, .integer n => some (.integer n)
  | .date, .moment when => when.second?.map .moment
  | .expires, .past => some .past
  | .expires, .moment when | .expires, .tagged .expiresDate (.moment when) =>
    when.second?.map fun start => .tagged .expiresDate (.moment start)
  | .retryAfter, .moment when | .retryAfter, .tagged .retryDate (.moment when) =>
    when.second?.map fun start => .tagged .retryDate (.moment start)
  | .retryAfter, .integer n | .retryAfter, .tagged .retryDelay (.integer n) =>
    some (.tagged .retryDelay (.integer n))
  | _, _ => none

namespace Codec

private theorem refuse_ne_ok (value : Value) (cause : InvalidValue) (data : Octets) :
    refuse value cause ≠ .ok data := fun written => by
  cases (Value.printing_eq_ok_iff.mp written).2

/-! ## Numbers -/

/-- What an integer encoding wrote is the numeral of an integer of the range, within the digit
limit. -/
theorem encodeInteger_eq_ok {codec : Codec} {range : IntegerRange} {value : Value} {data : Octets}
    (written : codec.encodeInteger range value = .ok data) :
    ∃ n, value = .integer n ∧ range.contains n ∧ digitCount n ≤ digitLimit ∧
      data = .ofAscii (numeral n) := by
  unfold encodeInteger at written
  split at written
  · rename_i n
    split at written
    · rename_i contains
      obtain ⟨short, ⟨⟩⟩ := Value.printing_eq_ok_iff.mp written
      exact ⟨n, rfl, contains, Value.isPrintable_integer_iff.mp short, rfl⟩
    · exact (refuse_ne_ok _ _ _ written).elim
  · exact (refuse_ne_ok _ _ _ written).elim

private theorem decodeInteger_numeral (codec : Codec) {range : IntegerRange} {n : Int}
    (contains : range.contains n) (short : digitCount n ≤ digitLimit) :
    codec.decodeInteger range (.octets (.ofAscii (numeral n))) = .ok ⟨some (.integer n), []⟩ := by
  have read := (range.read_eq_ok_iff _ _).mpr
    ⟨IntegerRange.writesInteger_numeral contains short, contains⟩
  simp only [decodeInteger, Value.fieldText_ofAscii (isPlainText_numeral n), Except.map,
    String.toList_ofList, read]

/-- A decoded integer is within its range and the digit limit, so it can be encoded again. -/
theorem decodeInteger_eq_ok {codec : Codec} {range : IntegerRange} {field value : Value}
    {reading : Reading} (read : codec.decodeInteger range field = .ok reading)
    (found : reading.value = some value) :
    ∃ n, value = .integer n ∧ range.contains n ∧ digitCount n ≤ digitLimit := by
  unfold decodeInteger at read
  cases text : field.fieldText with
  | error error => simp [text, Except.map] at read
  | ok text? =>
    simp only [text, Except.map, Except.ok.injEq] at read
    subst read
    split at found
    · cases found
    · split at found
      · rename_i n eq
        cases found
        obtain ⟨writes, contains⟩ := (range.read_eq_ok_iff _ _).mp eq
        exact ⟨n, rfl, contains, writes.digitCount_le⟩
      all_goals cases found

/-- An integer of the range within the digit limit is written as its numeral. -/
theorem encodeInteger_of_contains (codec : Codec) {range : IntegerRange} {n : Int}
    (contains : range.contains n) (short : digitCount n ≤ digitLimit) :
    codec.encodeInteger range (.integer n) = .ok (.ofAscii (numeral n)) := by
  rw [encodeInteger, if_pos contains, Value.printing_eq_ok_iff]
  exact ⟨Value.isPrintable_integer_iff.mpr short, rfl⟩

/-- Counts of seconds are 63 bit integers without a sign. -/
theorem contains_wordRange_iff {n : Int} : wordRange.contains n ↔ 0 ≤ n ∧ n ≤ 2 ^ 63 - 1 := by
  rw [IntegerRange.contains, Bool.and_eq_true, decide_eq_true_eq, decide_eq_true_eq]
  exact Iff.rfl

/-- The numbers of a word are short enough to be read. -/
theorem digitCount_le_of_wordRange {n : Int} (contains : wordRange.contains n) :
    digitCount n ≤ digitLimit := by
  have bounds : 0 ≤ n ∧ n ≤ 2 ^ 63 - 1 := contains_wordRange_iff.mp contains
  have short : digitCount n ≤ 19 :=
    (Nat.length_toDigits_le_iff (by decide) (by decide)).mpr (by omega)
  exact Nat.le_trans short (by decide)

/-! ## Dates -/

/-- What a date encoding wrote is a printed moment. -/
theorem encodeDate_eq_ok {value : Value} {data : Octets} (written : encodeDate value = .ok data) :
    ∃ when text, value = .moment when ∧ HttpDate.write? when = some text ∧ data = .ofAscii text := by
  unfold encodeDate at written
  split at written
  · rename_i when
    split at written
    · rename_i text write
      cases written
      exact ⟨when, text, rfl, write, rfl⟩
    · exact (refuse_ne_ok _ _ _ written).elim
  · exact (refuse_ne_ok _ _ _ written).elim

theorem isPlainText_of_write? {when : Moment} {text : List Char}
    (write : HttpDate.write? when = some text) : IsPlainText text := by
  obtain ⟨reading, -, rfl⟩ := Option.map_eq_some_iff.mp write
  exact (HttpDate.spelled_written 0 reading).isPlainText

private theorem decodeDate_written (codec : Codec) {when : Moment} {text : List Char}
    (write : HttpDate.write? when = some text) :
    ∃ start, when.second? = some start ∧
      codec.decodeDate (.octets (.ofAscii text)) = .ok ⟨some (.moment start), []⟩ := by
  obtain ⟨start, second, read⟩ := HttpDate.read?_of_write? HttpDate.defaultPivot_le write
  refine ⟨start, second, ?_⟩
  simp only [decodeDate, Value.fieldText_ofAscii (isPlainText_of_write? write), Except.map,
    Option.bind_some, String.toList_ofList, read]

/-- A field of digits is no date, and the log says so. -/
theorem decodeDate_digits (codec : Codec) {text : List Char} (digits : ∀ c ∈ text, c.isDigit) :
    codec.decodeDate (.octets (.ofAscii text)) =
      .ok ⟨none, [codec.note (.notDate (.octets (.ofAscii text)))]⟩ := by
  simp only [decodeDate, Value.fieldText_ofAscii (isPlainText_digits digits), Except.map,
    Option.bind_some, String.toList_ofList,
    HttpDate.read?_eq_none_of_digits HttpDate.defaultPivot_le digits]

/-- A decoded date is a whole second in UTC that can be encoded again. -/
theorem decodeDate_eq_ok {codec : Codec} {field value : Value} {reading : Reading}
    (read : codec.decodeDate field = .ok reading) (found : reading.value = some value) :
    ∃ when data, value = .moment when ∧ encodeDate value = .ok data ∧ when.second? = some when := by
  unfold decodeDate at read
  cases text : field.fieldText with
  | error error => simp [text, Except.map] at read
  | ok text? =>
    simp only [text, Except.map, Except.ok.injEq] at read
    subst read
    split at found
    · rename_i when eq
      cases found
      obtain ⟨text, rfl, read⟩ := Option.bind_eq_some_iff.mp eq
      obtain ⟨some, second⟩ := HttpDate.write?_of_read? HttpDate.defaultPivot_le read
      obtain ⟨written, write⟩ := Option.isSome_iff_exists.mp some
      exact ⟨when, .ofAscii written, rfl, by simp only [encodeDate, write], second⟩
    · cases found

/-! ## Dates and marks, dates and delays -/

/-- A date under Expires keeps its date, tagged. -/
theorem decodeExpires_of_date {codec : Codec} {field value : Value} {log : List Record}
    (read : codec.decodeDate field = .ok ⟨some value, log⟩) :
    codec.decodeExpires field = .ok ⟨some (.tagged .expiresDate value), log⟩ := by
  simp only [decodeExpires, read, Except.map]

/-- What is no date under Expires is taken as already expired, with a record. -/
theorem decodeExpires_of_none {codec : Codec} {field : Value} {log : List Record}
    (read : codec.decodeDate field = .ok ⟨none, log⟩) :
    codec.decodeExpires field = .ok ⟨some .past, log ++ [codec.note (.takenAsExpired field)]⟩ := by
  simp only [decodeExpires, read, Except.map]

/-- A date under Retry-After keeps its date, tagged, and the seconds reader is not tried. -/
theorem decodeRetryAfter_of_date {codec : Codec} {field value : Value} {log : List Record}
    (read : httpDate.decodeDate field = .ok ⟨some value, log⟩) :
    codec.decodeRetryAfter field = .ok ⟨some (.tagged .retryDate value), log⟩ := by
  simp only [decodeRetryAfter, read, bind, Except.bind, pure, Except.pure]

private theorem decodeRetryAfter_numeral (codec : Codec) {n : Int}
    (contains : wordRange.contains n) :
    ∃ log, codec.decodeRetryAfter (.octets (.ofAscii (numeral n))) =
      .ok ⟨some (.tagged .retryDelay (.integer n)), log⟩ := by
  have unsigned : ¬ n < 0 := by
    have := (contains_wordRange_iff.mp contains).1
    omega
  have digits : ∀ c ∈ numeral n, c.isDigit := by
    rw [numeral, if_neg unsigned]
    exact ((isDigits_iff _).mp (isDigits_toDigits _)).2
  have noDate := decodeDate_digits httpDate digits
  have delay := decodeInteger_numeral integer contains (digitCount_le_of_wordRange contains)
  exact ⟨_, by simp only [decodeRetryAfter, noDate, Value.gone, delay, bind, Except.bind, pure,
    Except.pure]; rfl⟩

/-! ## All codecs -/

/-- What a codec writes is plain text. -/
theorem isPlainText_of_encode {codec : Codec} {value : Value} {data : Octets}
    (written : codec.encode value = .ok data) : ∃ text, IsPlainText text ∧ data = .ofAscii text := by
  have ofInteger {codec : Codec} {range : IntegerRange} {value : Value}
      (written : codec.encodeInteger range value = .ok data) :
      ∃ text, IsPlainText text ∧ data = .ofAscii text := by
    obtain ⟨n, -, -, -, rfl⟩ := encodeInteger_eq_ok written
    exact ⟨_, isPlainText_numeral n, rfl⟩
  have ofDate {value : Value} (written : encodeDate value = .ok data) :
      ∃ text, IsPlainText text ∧ data = .ofAscii text := by
    obtain ⟨when, text, -, write, rfl⟩ := encodeDate_eq_ok written
    exact ⟨text, isPlainText_of_write? write, rfl⟩
  unfold encode at written
  split at written
  · cases written
  · exact ofInteger written
  · exact ofDate written
  · unfold encodeExpires at written
    split at written
    · cases written
      exact ⟨"0".toList, by decide, rfl⟩
    · exact ofDate written
    · exact ofDate written
  · unfold encodeRetryAfter at written
    split at written
    · exact ofDate written
    · exact ofInteger written
    · exact ofDate written
    · exact ofInteger written

private theorem decode_encodeExpires {codec : Codec} {value : Value} {data : Octets}
    (written : encodeExpires value = .ok data) :
    ∃ normal log, Kind.expires.normal? value = some normal ∧
      codec.decodeExpires (.octets data) = .ok ⟨some normal, log⟩ := by
  unfold encodeExpires at written
  split at written
  · cases written
    exact ⟨.past, _, rfl, decodeExpires_of_none
      (decodeDate_digits codec (List.all_eq_true.mp (by decide)))⟩
  · obtain ⟨when, text, rfl, write, rfl⟩ := encodeDate_eq_ok written
    obtain ⟨start, second, read⟩ := decodeDate_written codec write
    exact ⟨_, _, by simp only [Kind.normal?, second, Option.map_some], decodeExpires_of_date read⟩
  · obtain ⟨when, text, rfl, write, rfl⟩ := encodeDate_eq_ok written
    obtain ⟨start, second, read⟩ := decodeDate_written codec write
    exact ⟨_, _, by simp only [Kind.normal?, second, Option.map_some], decodeExpires_of_date read⟩

/-- Decoding what Retry-After wrote gives back the normal form of the value. -/
theorem decode_encodeRetryAfter {codec : Codec} {value : Value} {data : Octets}
    (written : encodeRetryAfter value = .ok data) :
    ∃ normal log, Kind.retryAfter.normal? value = some normal ∧
      codec.decodeRetryAfter (.octets data) = .ok ⟨some normal, log⟩ := by
  unfold encodeRetryAfter at written
  split at written
  · obtain ⟨when, text, rfl, write, rfl⟩ := encodeDate_eq_ok written
    obtain ⟨start, second, read⟩ := decodeDate_written httpDate write
    exact ⟨_, _, by simp only [Kind.normal?, second, Option.map_some],
      decodeRetryAfter_of_date read⟩
  · obtain ⟨n, rfl, contains, -, rfl⟩ := encodeInteger_eq_ok written
    obtain ⟨log, read⟩ := decodeRetryAfter_numeral codec contains
    exact ⟨_, log, rfl, read⟩
  · obtain ⟨when, text, eq, write, rfl⟩ := encodeDate_eq_ok written
    cases eq
    obtain ⟨start, second, read⟩ := decodeDate_written httpDate write
    exact ⟨_, _, by simp only [Kind.normal?, second, Option.map_some],
      decodeRetryAfter_of_date read⟩
  · obtain ⟨n, rfl, contains, -, rfl⟩ := encodeInteger_eq_ok written
    obtain ⟨log, read⟩ := decodeRetryAfter_numeral codec contains
    exact ⟨_, log, rfl, read⟩

/-- Every value that a codec writes is read from the one field as its normal form. -/
theorem decode_encode {codec : Codec} (family : codec.kind ≠ .abstract) {value : Value}
    {data : Octets} (written : codec.encode value = .ok data) :
    ∃ normal log, codec.kind.normal? value = some normal ∧
      codec.decode (.octets data) = .ok ⟨some normal, log⟩ := by
  unfold encode at written
  unfold decode
  cases kind : codec.kind with
  | abstract => exact absurd kind family
  | integer range =>
    rw [kind] at written
    obtain ⟨n, rfl, contains, short, rfl⟩ := encodeInteger_eq_ok written
    exact ⟨_, _, rfl, decodeInteger_numeral codec contains short⟩
  | date =>
    rw [kind] at written
    obtain ⟨when, text, rfl, write, rfl⟩ := encodeDate_eq_ok written
    obtain ⟨start, second, read⟩ := decodeDate_written codec write
    exact ⟨.moment start, _, by simp only [Kind.normal?, second, Option.map_some], read⟩
  | expires =>
    rw [kind] at written
    exact decode_encodeExpires written
  | retryAfter =>
    rw [kind] at written
    exact decode_encodeRetryAfter written

private theorem normal_of_decodeExpires {codec : Codec} {field value : Value} {reading : Reading}
    (read : codec.decodeExpires field = .ok reading) (found : reading.value = some value) :
    (∃ data, encodeExpires value = .ok data) ∧ Kind.expires.normal? value = some value := by
  unfold decodeExpires at read
  cases date : codec.decodeDate field with
  | error error => simp [date, Except.map] at read
  | ok dateReading =>
    simp only [date, Except.map, Except.ok.injEq] at read
    subst read
    split at found
    · rename_i dateFound
      obtain ⟨when, data, rfl, written, second⟩ := decodeDate_eq_ok date dateFound
      cases found
      exact ⟨⟨data, written⟩, by simp only [Kind.normal?, second, Option.map_some]⟩
    · cases found
      exact ⟨⟨_, rfl⟩, rfl⟩

private theorem normal_of_decodeRetryAfter {codec : Codec} {field value : Value} {reading : Reading}
    (read : codec.decodeRetryAfter field = .ok reading) (found : reading.value = some value) :
    (∃ data, encodeRetryAfter value = .ok data) ∧ Kind.retryAfter.normal? value = some value := by
  unfold decodeRetryAfter at read
  cases date : httpDate.decodeDate field with
  | error error => simp [date, bind, Except.bind] at read
  | ok dateReading =>
    simp only [date, bind, Except.bind] at read
    split at read
    · rename_i dateFound
      obtain ⟨when, data, rfl, written, second⟩ := decodeDate_eq_ok date dateFound
      cases read
      cases found
      exact ⟨⟨data, written⟩, by simp only [Kind.normal?, second, Option.map_some]⟩
    · cases delay : integer.decodeInteger wordRange field.gone with
      | error error => simp [delay] at read
      | ok delayReading =>
        simp only [delay] at read
        split at read
        · rename_i delayFound
          obtain ⟨n, rfl, contains, short⟩ := decodeInteger_eq_ok delay delayFound
          cases read
          cases found
          exact ⟨⟨_, encodeInteger_of_contains integer contains short⟩, rfl⟩
        · cases read
          cases found

/-- What a codec reads is in normal form, and the codec can write it. -/
theorem normal_of_decode {codec : Codec} {field value : Value} {reading : Reading}
    (read : codec.decode field = .ok reading) (found : reading.value = some value) :
    (∃ data, codec.encode value = .ok data) ∧ codec.kind.normal? value = some value := by
  unfold decode at read
  unfold encode
  cases kind : codec.kind with
  | abstract =>
    rw [kind] at read
    cases read
  | integer range =>
    rw [kind] at read
    obtain ⟨n, rfl, contains, short⟩ := decodeInteger_eq_ok read found
    exact ⟨⟨_, encodeInteger_of_contains codec contains short⟩, rfl⟩
  | date =>
    rw [kind] at read
    obtain ⟨when, data, rfl, written, second⟩ := decodeDate_eq_ok read found
    exact ⟨⟨data, written⟩, by simp only [Kind.normal?, second, Option.map_some]⟩
  | expires =>
    rw [kind] at read
    exact normal_of_decodeExpires read found
  | retryAfter =>
    rw [kind] at read
    exact normal_of_decodeRetryAfter read found

/-- Writing and reading are inverse to each other: a value that a codec writes is read as its normal
form, and a value that a codec reads from the fields of a header can be written and is read again,
with the mark of an expired date among them. -/
theorem decode_inverts_encode (codec : Codec) (family : codec.kind ≠ .abstract) :
    (∀ value data, codec.encode value = .ok data →
      ∃ normal log, codec.kind.normal? value = some normal ∧
        codec.decode (.octets data) = .ok ⟨some normal, log⟩) ∧
      ∀ (raw : List Octets) (value : Value) (log : List Record),
        codec.decodeRaw (.list (raw.map .octets)) = .ok ⟨some value, log⟩ →
        ∃ data log', codec.encode value = .ok data ∧
          codec.decodeRaw (.list [.octets data]) = .ok ⟨some value, log'⟩ := by
  refine ⟨fun value data written => decode_encode family written, ?_⟩
  intro raw value log read
  change codec.decodeFields (raw.map .octets) = _ at read
  match raw, read with
  | [], read => cases read
  | _ :: _ :: _, read => cases read
  | [field], read =>
    change codec.decode (.octets field) = _ at read
    obtain ⟨⟨data, written⟩, normal⟩ := normal_of_decode read rfl
    obtain ⟨_, log', same, again⟩ := decode_encode family written
    rw [normal] at same
    cases same
    exact ⟨data, log', written, again⟩

theorem decode_inverts_encode_delay :
    (∃ normal log, (Kind.retryAfter).normal? (.integer 120) = some normal ∧
      Codec.retryAfter.decode (.octets (.ofPhrase "120")) = .ok ⟨some normal, log⟩) ∧
    ∃ data log, Codec.expires.encode .past = .ok data ∧
      Codec.expires.decodeRaw (.list [.octets data]) = .ok ⟨some .past, log⟩ := by
  have unread : expires.decodeDate (.octets (.ofAscii "0".toList)) = .ok ⟨none, _⟩ :=
    decodeDate_digits expires (List.all_eq_true.mp (by decide))
  have expired : expires.decodeRaw (.list [.octets (.ofAscii "0".toList)]) = .ok ⟨some .past, _⟩ :=
    decodeExpires_of_none unread
  exact ⟨(decode_inverts_encode .retryAfter (by decide)).1 (.integer 120) _ rfl,
    (decode_inverts_encode .expires (by decide)).2 [.ofAscii "0".toList] .past _ expired⟩

end Codec

end TypedHeaders
