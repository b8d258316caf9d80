import TypedHeaders.Proofs.Codec.RoundTrip
import TypedHeaders.Proofs.HttpDate.Canonical

/-! # Canonical fields

Of all fields that hold the same value, a codec writes one. What it writes is in canonical form, and a
field in canonical form that holds a value is what the codec writes for that value, so reading and
writing again changes exactly the fields that are not in this form.
-/

namespace TypedHeaders

/-- The texts that are in canonical form for a kind of codec. -/
def Kind.IsCanonicalText : Kind → List Char → Prop
  | .abstract, _ => False
  | .integer range, text => IsCanonicalNumeral range.signed text
  | .date, text => HttpDate.IsCanonical text
  | .expires, text => HttpDate.IsCanonical text ∨ text = ['0']
  | .retryAfter, text => HttpDate.IsCanonical text ∨ IsCanonicalNumeral false text

/-- A field in canonical form holds such a text in ASCII. -/
def Kind.IsCanonical (kind : Kind) (data : Octets) : Prop :=
  ∃ text, data = .ofAscii text ∧ kind.IsCanonicalText text

namespace Codec

/-! ## What is written is canonical -/

private theorem isCanonicalNumeral_of_encodeInteger {codec : Codec} {range : IntegerRange}
    {value : Value} {data : Octets} (written : codec.encodeInteger range value = .ok data) :
    ∃ text, data = .ofAscii text ∧ IsCanonicalNumeral range.signed text := by
  obtain ⟨n, -, contains, -, rfl⟩ := encodeInteger_eq_ok written
  exact ⟨_, rfl, isCanonicalNumeral_numeral
    (IntegerRange.signed_of_contains_negative contains)⟩

private theorem isCanonical_of_encodeDate {value : Value} {data : Octets}
    (written : encodeDate value = .ok data) :
    ∃ text, data = .ofAscii text ∧ HttpDate.IsCanonical text := by
  obtain ⟨when, text, -, write, rfl⟩ := encodeDate_eq_ok written
  exact ⟨text, rfl, HttpDate.isCanonical_of_write? write⟩

private theorem isCanonical_of_encodeExpires {value : Value} {data : Octets}
    (written : encodeExpires value = .ok data) : Kind.expires.IsCanonical data := by
  have ofDate {value : Value} (written : encodeDate value = .ok data) :
      Kind.expires.IsCanonical data := by
    obtain ⟨text, eq, canonical⟩ := isCanonical_of_encodeDate written
    exact ⟨text, eq, .inl canonical⟩
  unfold encodeExpires at written
  split at written
  · cases written
    exact ⟨['0'], rfl, .inr rfl⟩
  · exact ofDate written
  · exact ofDate written

private theorem isCanonical_of_encodeRetryAfter {value : Value} {data : Octets}
    (written : encodeRetryAfter value = .ok data) : Kind.retryAfter.IsCanonical data := by
  have ofDate {value : Value} (written : encodeDate value = .ok data) :
      Kind.retryAfter.IsCanonical data := by
    obtain ⟨text, eq, canonical⟩ := isCanonical_of_encodeDate written
    exact ⟨text, eq, .inl canonical⟩
  have ofDelay {value : Value} (written : integer.encodeInteger wordRange value = .ok data) :
      Kind.retryAfter.IsCanonical data := by
    obtain ⟨text, eq, canonical⟩ := isCanonicalNumeral_of_encodeInteger written
    exact ⟨text, eq, .inr canonical⟩
  unfold encodeRetryAfter at written
  split at written
  · exact ofDate written
  · exact ofDelay written
  · exact ofDate written
  · exact ofDelay written

/-- Encoding gives canonical bytes only. -/
theorem isCanonical_of_encode {codec : Codec} {value : Value} {data : Octets}
    (written : codec.encode value = .ok data) : codec.kind.IsCanonical data := by
  unfold encode at written
  cases kind : codec.kind with
  | abstract =>
    rw [kind] at written
    cases written
  | integer range =>
    rw [kind] at written
    exact isCanonicalNumeral_of_encodeInteger written
  | date =>
    rw [kind] at written
    exact isCanonical_of_encodeDate written
  | expires =>
    rw [kind] at written
    exact isCanonical_of_encodeExpires written
  | retryAfter =>
    rw [kind] at written
    exact isCanonical_of_encodeRetryAfter written

/-! ## What is canonical is written -/

private theorem encodeInteger_of_canonical {codec codec' : Codec} {range : IntegerRange}
    {text : List Char}
    {value : Value} {log : List Record} (canonical : IsCanonicalNumeral range.signed text)
    (read : codec.decodeInteger range (.octets (.ofAscii text)) = .ok ⟨some value, log⟩) :
    codec'.encodeInteger range value = .ok (.ofAscii text) := by
  simp only [decodeInteger, Value.fieldText_ofAscii canonical.isPlainText, Except.map,
    String.toList_ofList, Except.ok.injEq] at read
  cases number : range.read text with
  | error rejection => cases rejection <;> simp [number] at read
  | ok n =>
    obtain ⟨writes, contains⟩ := (range.read_eq_ok_iff text n).mp number
    simp only [number, Reading.mk.injEq, Option.some.injEq] at read
    obtain ⟨rfl, -⟩ := read
    rw [encodeInteger_of_contains codec' contains writes.digitCount_le,
      canonical.eq_numeral writes]

private theorem decodeDate_of_canonical (codec : Codec) {text : List Char}
    (canonical : HttpDate.IsCanonical text) :
    ∃ when, codec.decodeDate (.octets (.ofAscii text)) = .ok ⟨some (.moment when), []⟩ ∧
      encodeDate (.moment when) = .ok (.ofAscii text) := by
  obtain ⟨when, read, write⟩ := canonical.exists_moment HttpDate.defaultPivot_le
  refine ⟨when, ?_, ?_⟩
  · simp only [decodeDate, Value.fieldText_ofAscii (isPlainText_of_write? write), Except.map,
      Option.bind_some, String.toList_ofList, read]
  · simp only [encodeDate, write]

private theorem encodeRetryAfter_of_canonical {codec : Codec} {text : List Char} {value : Value}
    {log : List Record} (canonical : Kind.retryAfter.IsCanonicalText text)
    (read : codec.decodeRetryAfter (.octets (.ofAscii text)) = .ok ⟨some value, log⟩) :
    encodeRetryAfter value = .ok (.ofAscii text) := by
  rcases canonical with date | delay
  · obtain ⟨when, decoded, encoded⟩ := decodeDate_of_canonical httpDate date
    cases (decodeRetryAfter_of_date decoded).symm.trans read
    exact encoded
  · have noDate := decodeDate_digits httpDate delay.isDigit
    simp only [decodeRetryAfter, noDate, Value.gone, bind, Except.bind] at read
    rcases delayRead : integer.decodeInteger wordRange (.octets (.ofAscii text)) with
      error | ⟨_ | seconds, delayLog⟩ <;> rw [delayRead] at read
    · cases read
    · cases read
    · cases read
      exact encodeInteger_of_canonical delay delayRead

/-- A field in canonical form that holds a value is what is written for the value. -/
theorem encode_of_isCanonical {codec : Codec} {data : Octets} {value : Value} {log : List Record}
    (canonical : codec.kind.IsCanonical data)
    (read : codec.decode (.octets data) = .ok ⟨some value, log⟩) :
    codec.encode value = .ok data := by
  obtain ⟨text, rfl, canonical⟩ := canonical
  unfold decode at read
  unfold encode
  cases kind : codec.kind with
  | abstract =>
    rw [kind] at canonical
    exact canonical.elim
  | integer range =>
    rw [kind] at canonical read
    exact encodeInteger_of_canonical canonical read
  | date =>
    rw [kind] at canonical read
    obtain ⟨when, decoded, encoded⟩ := decodeDate_of_canonical codec canonical
    cases decoded.symm.trans read
    exact encoded
  | expires =>
    rw [kind] at canonical read
    rcases canonical with date | rfl
    · obtain ⟨when, decoded, encoded⟩ := decodeDate_of_canonical codec date
      cases (decodeExpires_of_date decoded).symm.trans read
      exact encoded
    · cases (decodeExpires_of_none
        (decodeDate_digits codec (List.all_eq_true.mp (by decide)))).symm.trans read
      rfl
  | retryAfter =>
    rw [kind] at canonical read
    exact encodeRetryAfter_of_canonical canonical read

/-- Reading and writing leave exactly those fields as they are that are in canonical form, and whatever
is written is in this form. Two dates are written alike exactly if they lie in the same second. -/
theorem encode_eq_iff_isCanonical (codec : Codec) :
    (∀ data value log, codec.decode (.octets data) = .ok ⟨some value, log⟩ →
        (codec.encode value = .ok data ↔ codec.kind.IsCanonical data)) ∧
      (∀ value data, codec.encode value = .ok data → codec.kind.IsCanonical data) ∧
      ∀ a b : Moment, InCalendar a.instant → InCalendar b.instant →
        ∃ text text', HttpDate.write? a = some text ∧ HttpDate.write? b = some text' ∧
          (text = text' ↔ a.instant / microsPerSecond = b.instant / microsPerSecond) :=
  ⟨fun _ _ _ read => ⟨isCanonical_of_encode, fun canonical => encode_of_isCanonical canonical read⟩,
    fun _ _ => isCanonical_of_encode,
    fun _ _ reached reached' => HttpDate.write?_eq_write?_iff reached reached'⟩

theorem encode_eq_iff_isCanonical_zeros :
    let date : CivilDate := ⟨9999, 12, 31, by decide⟩
    let naive : Moment := ⟨date, ⟨23, 59, 59, 0, by decide⟩, none⟩
    let late : Moment := ⟨date, ⟨23, 59, 59, 999999, by decide⟩, some .utc⟩
    age.decode (.octets (.ofPhrase "007")) = .ok ⟨some (.integer 7), []⟩ ∧
      ¬ age.kind.IsCanonical (.ofPhrase "007") ∧ age.kind.IsCanonical (.ofPhrase "7") ∧
      ∃ text, HttpDate.write? naive = some text ∧ HttpDate.write? late = some text := by
  intro date naive late
  obtain ⟨fixed, written, alike⟩ := encode_eq_iff_isCanonical age
  have read : age.decode (.octets (.ofPhrase "007")) = .ok ⟨some (.integer 7), []⟩ := rfl
  have shorter : age.encode (.integer 7) = .ok (.ofPhrase "7") := rfl
  refine ⟨read, fun canonical => ?_, written _ _ shorter, ?_⟩
  · have same := (fixed _ _ _ read).mpr canonical
    rw [shorter] at same
    exact absurd (Except.ok.inj same) (by decide)
  · obtain ⟨text, text', write, write', iff⟩ := alike naive late
      (by unfold InCalendar; decide) (by unfold InCalendar; decide)
    obtain rfl := iff.mpr (by decide)
    exact ⟨text, write, write'⟩

end Codec

end TypedHeaders
