import TypedHeaders.Proofs.Codec.Integer

/-! # What a codec reads from a field

A codec sees of a field only its text, and bytes that are no UTF-8 have none. What comes out is a
function of this text and the kind of the codec; the name of the header and the shape of the field
show in the records alone. So the bytes of a string are read as the string is, and any bytes can be
read, however malformed they are.

Dates and numbers are written in ASCII. From a text with other characters nothing comes out, save that
an expiry date counts as passed.
-/

namespace TypedHeaders

/-! ## The text of a field -/

/-- A field that can be looked at again and again, and has this text or has none. -/
structure Value.HasText (field : Value) (text? : Option String) : Prop where
  text : field.fieldText = .ok text?
  stays : field.gone = field

namespace Value

theorem hasText_text (s : String) : (Value.text s).HasText (some s) := ⟨rfl, rfl⟩

theorem hasText_octets (data : Octets) :
    (Value.octets data).HasText ((Text.Utf8.decode? data).map String.ofList) := ⟨rfl, rfl⟩

theorem hasText_buffer (data : Octets) :
    (Value.buffer data).HasText ((Text.Utf8.decode? data).map String.ofList) := ⟨rfl, rfl⟩

/-- Bytes and buffers that encode a text have that text. -/
theorem hasText_utf8 (s : String) : (Value.octets s.toUTF8.data.toList).HasText (some s) ∧
    (Value.buffer s.toUTF8.data.toList).HasText (some s) := by
  have text : (Text.Utf8.decode? s.toUTF8.data.toList).map String.ofList = some s := by
    rw [Text.Utf8.decode?_toUTF8, Option.map_some, String.ofList_toList]
  exact ⟨text ▸ hasText_octets _, text ▸ hasText_buffer _⟩

end Value

/-! ## What the text holds -/

def HttpDate.named? (text? : Option String) : Option Value :=
  (text?.bind fun text => read? defaultPivot text.toList).map .moment

def IntegerRange.written? (range : IntegerRange) (text? : Option String) : Option Value :=
  (text?.bind fun text => (range.read text.toList).toOption).map .integer

/-- What a codec of a kind reads from a text, or from bytes that have none. -/
def Kind.read? (kind : Kind) (text? : Option String) : Option Value :=
  match kind with
  | .abstract => none
  | .integer range => range.written? text?
  | .date => HttpDate.named? text?
  | .expires => some ((HttpDate.named? text?).elim .past (.tagged .expiresDate))
  | .retryAfter =>
    ((HttpDate.named? text?).map (.tagged .retryDate)).or
      ((Codec.wordRange.written? text?).map (.tagged .retryDelay))

/-- A field that names a date has a text that some form spells. -/
theorem HttpDate.exists_spelled_of_named? {text? : Option String} {value : Value}
    (named : named? text? = some value) :
    ∃ text form fields, text? = some text ∧ Spelled defaultPivot form text.toList fields := by
  obtain ⟨when, found, -⟩ := Option.map_eq_some_iff.mp named
  obtain ⟨text, has, read⟩ := Option.bind_eq_some_iff.mp found
  obtain ⟨form, fields, spelled, -⟩ := (read?_eq_some_iff defaultPivot_le _ _).mp read
  exact ⟨text, form, fields, has, spelled⟩

/-- A field that writes an integer has a text that is a numeral. -/
theorem IntegerRange.exists_writes_of_written? {range : IntegerRange} {text? : Option String}
    {value : Value} (written : range.written? text? = some value) :
    ∃ text n, text? = some text ∧ WritesInteger range.signed text.toList n := by
  obtain ⟨n, found, -⟩ := Option.map_eq_some_iff.mp written
  obtain ⟨text, has, number⟩ := Option.bind_eq_some_iff.mp found
  have read : range.read text.toList = .ok n := by
    cases result : range.read text.toList with
    | ok m => simpa [result, Except.toOption] using number
    | error cause => simp [result, Except.toOption] at number
  exact ⟨text, n, has, ((range.read_eq_ok_iff _ _).mp read).1⟩

/-- A text with other than ASCII characters is no date and no number. -/
theorem Kind.read?_of_foreign (kind : Kind) {text? : Option String}
    (foreign : ∀ text, text? = some text → ¬ Text.IsAscii text.toList) :
    kind.read? text? = if kind = .expires then some .past else none := by
  have noDate : HttpDate.named? text? = none := by
    apply Option.eq_none_iff_forall_ne_some.mpr
    intro value named
    obtain ⟨text, form, fields, has, spelled⟩ := HttpDate.exists_spelled_of_named? named
    refine foreign text has fun c member => ?_
    have plain := spelled.isPlainText c member
    omega
  have noNumber (range : IntegerRange) : range.written? text? = none := by
    apply Option.eq_none_iff_forall_ne_some.mpr
    intro value written
    obtain ⟨text, n, has, writes⟩ := IntegerRange.exists_writes_of_written? written
    exact foreign text has writes.isAscii
  cases kind with
  | abstract => rfl
  | integer range => exact noNumber range
  | date => exact noDate
  | expires => rw [read?, noDate, Option.elim_none, if_pos rfl]
  | retryAfter => simp only [read?, noDate, noNumber, Option.map_none, Option.or_none,
      reduceCtorEq, ↓reduceIte]

namespace Codec

/-! ## What comes out -/

/-- Integer decoding sees no more of a field than its text. -/
theorem decodeInteger_of_hasText (codec : Codec) (range : IntegerRange) {field : Value}
    {text? : Option String} (hasText : field.HasText text?) :
    ∃ log, codec.decodeInteger range field = .ok ⟨range.written? text?, log⟩ := by
  simp only [decodeInteger, hasText.text, Except.map]
  cases text? with
  | none => exact ⟨_, rfl⟩
  | some text =>
    simp only [IntegerRange.written?, Option.bind_some]
    cases range.read text.toList with
    | ok n => exact ⟨_, rfl⟩
    | error cause => cases cause <;> exact ⟨_, rfl⟩

/-- Date decoding sees no more of a field than its text. -/
theorem decodeDate_of_hasText (codec : Codec) {field : Value} {text? : Option String}
    (hasText : field.HasText text?) :
    ∃ log, codec.decodeDate field = .ok ⟨HttpDate.named? text?, log⟩ := by
  simp only [decodeDate, hasText.text, Except.map, HttpDate.named?]
  cases text?.bind fun text => HttpDate.read? HttpDate.defaultPivot text.toList with
  | none => exact ⟨_, rfl⟩
  | some when => exact ⟨_, rfl⟩

/-- What comes out of a field is what the kind of the codec reads from its text. -/
theorem decode_of_hasText {codec : Codec} (family : codec.kind ≠ .abstract) {field : Value}
    {text? : Option String} (hasText : field.HasText text?) :
    ∃ log, codec.decode field = .ok ⟨codec.kind.read? text?, log⟩ := by
  unfold decode
  cases kind : codec.kind with
  | abstract => exact (family kind).elim
  | integer range => exact decodeInteger_of_hasText codec range hasText
  | date => exact decodeDate_of_hasText codec hasText
  | expires =>
    obtain ⟨log, date⟩ := decodeDate_of_hasText codec hasText
    simp only [decodeExpires, date, Except.map, Kind.read?]
    cases HttpDate.named? text? with
    | none => exact ⟨_, rfl⟩
    | some when => exact ⟨_, rfl⟩
  | retryAfter =>
    obtain ⟨log, date⟩ := decodeDate_of_hasText httpDate hasText
    obtain ⟨log', delay⟩ := decodeInteger_of_hasText integer wordRange hasText
    simp only [decodeRetryAfter, date, hasText.stays, delay, bind, Except.bind, Kind.read?]
    cases HttpDate.named? text? with
    | some when => exact ⟨_, rfl⟩
    | none => cases wordRange.written? text? <;> exact ⟨_, rfl⟩

/-- Any bytes can be read, although nothing may come out. -/
theorem exists_decode_octets {codec : Codec} (family : codec.kind ≠ .abstract) (data : Octets) :
    ∃ reading, codec.decode (.octets data) = .ok reading := by
  obtain ⟨log, read⟩ := decode_of_hasText family (Value.hasText_octets data)
  exact ⟨_, read⟩

/-- No fields of bytes are too malformed to be read. Nothing comes out unless there is one field, and
then it is what the codec reads from this field; of an expiry date that is the date, or the mark of
one that has passed, and never nothing. -/
theorem decodeRaw_octets_eq_ok {codec : Codec} (family : codec.kind ≠ .abstract) {raw : Value}
    {fields : List Octets} (yields : raw.iterate = .ok (fields.map .octets)) :
    ∃ reading, codec.decodeRaw raw = .ok reading ∧ (fields.length ≠ 1 → reading.value = none) ∧
      ∀ data, fields = [data] → codec.decode (.octets data) = .ok reading ∧
        (codec.kind = .expires → reading.value ≠ none ∧
          ∃ date, httpDate.decode (.octets data) = .ok date ∧
            (∀ when, reading.value = some (.tagged .expiresDate when) ↔ date.value = some when) ∧
            (reading.value = some .past ↔ date.value = none)) := by
  have passedOn : codec.decodeRaw raw = codec.decodeFields (fields.map .octets) := by
    rw [decodeRaw, yields]
    rfl
  rw [passedOn]
  match fields with
  | [] => exact ⟨_, rfl, fun _ => rfl, by rintro _ ⟨⟩⟩
  | _ :: _ :: _ => exact ⟨_, rfl, fun _ => rfl, by rintro _ ⟨⟩⟩
  | [data] =>
    have hasText := Value.hasText_octets data
    obtain ⟨log, read⟩ := decode_of_hasText family hasText
    obtain ⟨log', date⟩ := decodeDate_of_hasText httpDate hasText
    refine ⟨_, read, fun several => absurd rfl several, ?_⟩
    rintro _ ⟨⟩
    refine ⟨read, fun kind => ?_⟩
    rw [kind, Kind.read?]
    refine ⟨Option.some_ne_none _, _, date, ?_⟩
    cases HttpDate.named? ((Text.Utf8.decode? data).map String.ofList) <;> simp

theorem decodeRaw_octets_eq_ok_malformed :
    (∃ reading, expires.decodeRaw (.tuple [.octets [0xFF]]) = .ok reading ∧ reading.value ≠ none) ∧
      ∃ reading, age.decodeRaw (.list [.octets (.ofPhrase "1"), .octets (.ofPhrase "1")]) =
        .ok reading ∧ reading.value = none := by
  have one : (Value.tuple [.octets [0xFF]]).iterate = .ok (([[0xFF]] : List Octets).map .octets) :=
    rfl
  have two : (Value.list [.octets (.ofPhrase "1"), .octets (.ofPhrase "1")]).iterate =
    .ok ([.ofPhrase "1", .ofPhrase "1"].map .octets) := rfl
  obtain ⟨expired, read, -, field⟩ := decodeRaw_octets_eq_ok (show expires.kind ≠ _ by decide) one
  obtain ⟨several, read', nothing, -⟩ := decodeRaw_octets_eq_ok (show age.kind ≠ _ by decide) two
  exact ⟨⟨expired, read, ((field _ rfl).2 rfl).1⟩, several, read', nothing (by decide)⟩

/-! ## Text and bytes -/

/-- A string is read as its bytes in UTF-8 are, whether or not they may still be changed, and from
bytes that are not all ASCII nothing comes out, save that an expiry date counts as passed. -/
theorem decode_text_eq_decode_utf8 {codec : Codec} (family : codec.kind ≠ .abstract) :
    (∀ s : String, ∃ value? : Option Value,
      ∀ field ∈ [Value.text s, .octets s.toUTF8.data.toList, .buffer s.toUTF8.data.toList],
        ∃ log, codec.decode field = .ok ⟨value?, log⟩) ∧
      ∀ data : Octets, (∃ b ∈ data, 0x80 ≤ b) → ∃ log, codec.decode (.octets data) =
        .ok ⟨if codec.kind = .expires then some .past else none, log⟩ := by
  constructor
  · intro s
    refine ⟨codec.kind.read? (some s), fun field member => decode_of_hasText family ?_⟩
    simp only [List.mem_cons, List.not_mem_nil, or_false] at member
    rcases member with rfl | rfl | rfl
    · exact Value.hasText_text s
    · exact (Value.hasText_utf8 s).1
    · exact (Value.hasText_utf8 s).2
  · intro data large
    obtain ⟨log, read⟩ := decode_of_hasText family (Value.hasText_octets data)
    rw [Kind.read?_of_foreign] at read
    · exact ⟨log, read⟩
    · intro text has
      obtain ⟨chars, decoded, rfl⟩ := Option.map_eq_some_iff.mp has
      rw [String.toList_ofList]
      exact Text.Utf8.not_isAscii_of_decode? decoded large

/-- The digit one in two bytes is no digit. -/
theorem decode_text_eq_decode_utf8_overlong :
    (∃ log, age.decode (.buffer "1".toUTF8.data.toList) = .ok ⟨some (.integer 1), log⟩) ∧
      ∃ log, age.decode (.octets [0xC0, 0xB1]) = .ok ⟨none, log⟩ := by
  obtain ⟨agree, foreign⟩ := decode_text_eq_decode_utf8 (show age.kind ≠ .abstract by decide)
  obtain ⟨value?, same⟩ := agree "1"
  obtain ⟨_, fromText⟩ := same (.text "1") (by simp)
  obtain ⟨log, fromBuffer⟩ := same (.buffer "1".toUTF8.data.toList) (by simp)
  have one : age.decode (.text "1") = .ok ⟨some (.integer 1), []⟩ := rfl
  cases one.symm.trans fromText
  exact ⟨⟨log, fromBuffer⟩, foreign [0xC0, 0xB1] ⟨0xC0, by decide, by decide⟩⟩

end Codec

end TypedHeaders
