import TypedHeaders.Proofs.Codec.Reading

/-! # What is logged when nothing comes out

Whoever looks for a fault finds in the log why a field could not be read: each refusal leaves a
record for debugging that quotes the field, and so does an expiry date that is taken as passed. A
number of fields other than one leaves a record of their number. The one refusal without a record is
that of a numeral with more digits than are read, where a codec of whole numbers is asked for it
directly; for a retry delay the record of the date that it is not remains.
-/

namespace TypedHeaders

/-! ## Records -/

def Notice.field? : Notice → Option Value
  | .fieldCount _ => none
  | .notInteger field | .outOfRange field | .notDate field | .takenAsExpired field
  | .neitherDateNorDelay field => some field

/-- The sentence of the record holds the field as messages print it. -/
def Record.Quotes (record : Record) (field : Value) : Prop :=
  ∃ before after, record.message = before ++ field.printed ++ after

private theorem Record.quotes_of_field? {record : Record} {field : Value}
    (about : record.notice.field? = some field) : record.Quotes field := by
  obtain ⟨level, header, notice⟩ := record
  have ended (words : String) : ∃ before after,
      header.getD "None" ++ ": " ++ (words ++ field.printed) = before ++ field.printed ++ after :=
    ⟨header.getD "None" ++ ": " ++ words, "", by simp [String.append_assoc]⟩
  cases notice with
  | fieldCount count => cases about
  | takenAsExpired field =>
    cases about
    exact ⟨header.getD "None" ++ ": ", " taken as already expired", by
      simp [message, String.append_assoc]⟩
  | notInteger field | outOfRange field | notDate field | neitherDateNorDelay field =>
    cases about
    exact ended _

/-! ## Numerals that are not read -/

/-- A numeral with more digits than are read, before which there may be a minus sign if the numeral
is signed. -/
def IsOverlong (signed : Bool) (text : List Char) : Prop :=
  ∃ digits, isDigits digits = true ∧ digitLimit < digits.length ∧
    (text = digits ∨ signed = true ∧ text = '-' :: digits)

theorem IsOverlong.isAscii {signed : Bool} {text : List Char} (overlong : IsOverlong signed text) :
    Text.IsAscii text := by
  obtain ⟨digits, isDigits, -, rfl | ⟨-, rfl⟩⟩ := overlong
  · exact isAscii_of_isDigits isDigits
  · exact (Text.isAscii_cons ..).mpr ⟨by decide, isAscii_of_isDigits isDigits⟩

namespace IntegerRange

private theorem isNumeral_iff (range : IntegerRange) (text : List Char) :
    range.isNumeral text = true ↔ ∃ digits, isDigits digits = true ∧
      (text = digits ∨ range.signed = true ∧ text = '-' :: digits) := by
  constructor
  · intro isNumeral
    unfold IntegerRange.isNumeral at isNumeral
    split at isNumeral
    · rename_i digits
      obtain ⟨signed, isDigits⟩ := Bool.and_eq_true_iff.mp isNumeral
      exact ⟨digits, isDigits, .inr ⟨signed, rfl⟩⟩
    · exact ⟨text, isNumeral, .inl rfl⟩
  · rintro ⟨digits, isDigits, rfl | ⟨signed, rfl⟩⟩
    · unfold IntegerRange.isNumeral
      split
      · exact absurd rfl (ne_minus_of_isDigits isDigits _)
      · exact isDigits
    · rw [IntegerRange.isNumeral, signed, isDigits, Bool.and_self]

private theorem numeralValue?_eq_none_iff {digits text : List Char}
    (isDigits : isDigits digits = true) (numeral : text = digits ∨ text = '-' :: digits) :
    numeralValue? text = none ↔ digitLimit < digits.length := by
  rcases numeral with rfl | rfl
  · unfold numeralValue?
    split
    · exact absurd rfl (ne_minus_of_isDigits isDigits _)
    · simp
  · simp [numeralValue?]

/-- The numerals that are refused unread are those with too many digits. -/
theorem read_eq_tooLong_iff (range : IntegerRange) (text : List Char) :
    range.read text = .error .tooLong ↔ IsOverlong range.signed text := by
  have unread : range.read text = .error .tooLong ↔
      range.isNumeral text = true ∧ numeralValue? text = none := by
    rw [IntegerRange.read]
    cases range.isNumeral text with
    | false => simp
    | true =>
      cases numeralValue? text with
      | none => simp
      | some n => by_cases contained : range.contains n <;> simp [contained]
  rw [unread, isNumeral_iff]
  constructor
  · rintro ⟨⟨digits, isDigits, numeral⟩, none⟩
    have long := (numeralValue?_eq_none_iff isDigits (numeral.imp_right And.right)).mp none
    exact ⟨digits, isDigits, long, numeral⟩
  · rintro ⟨digits, isDigits, long, numeral⟩
    have none := (numeralValue?_eq_none_iff isDigits (numeral.imp_right And.right)).mpr long
    exact ⟨⟨digits, isDigits, numeral⟩, none⟩

end IntegerRange

namespace Codec

/-! ## What each codec logs -/

/-- The codec is one of whole numbers, and the text is a numeral with more digits than it reads. -/
def PassesOverText (codec : Codec) (text? : Option String) : Prop :=
  ∃ range text, codec.kind = .integer range ∧ text? = some text ∧
    IsOverlong range.signed text.toList

/-- The log tells why nothing came out of a field with this text, save of a numeral that the codec
passes over. -/
structure Explains (codec : Codec) (field : Value) (text? : Option String) (reading : Reading) :
    Prop where
  debug : ∀ record ∈ reading.log, record.level = .debug
  silent : codec.PassesOverText text? → reading = ⟨none, []⟩
  quoted : reading.value = none ∨ reading.value = some .past → ¬ codec.PassesOverText text? →
    ∃ record ∈ reading.log, record.Quotes field

section

variable {codec : Codec} {field : Value} {text? : Option String}

private theorem Explains.of_value {value : Value} {log : List Record}
    (debug : ∀ record ∈ log, record.level = .debug) (taken : ¬ codec.PassesOverText text?)
    (present : value ≠ .past) : codec.Explains field text? ⟨some value, log⟩ where
  debug := debug
  silent := fun passed => (taken passed).elim
  quoted := by
    rintro (none | past)
    · cases none
    · exact (present (Option.some.inj past)).elim

private theorem Explains.of_record {reading : Reading}
    (debug : ∀ record ∈ reading.log, record.level = .debug) (taken : ¬ codec.PassesOverText text?)
    {record : Record} (member : record ∈ reading.log) (about : record.notice.field? = some field) :
    codec.Explains field text? reading where
  debug := debug
  silent := fun passed => (taken passed).elim
  quoted _ _ := ⟨record, member, Record.quotes_of_field? about⟩

/-- A numeral with too many digits is refused without a record. Otherwise a number is read, or there
is a record of the refusal. -/
theorem decodeInteger_cases (codec : Codec) (range : IntegerRange)
    (hasText : field.HasText text?) :
    ((∃ text, text? = some text ∧ IsOverlong range.signed text.toList) ∧
        codec.decodeInteger range field = .ok ⟨none, []⟩) ∨
      (¬ ∃ text, text? = some text ∧ IsOverlong range.signed text.toList) ∧
        ((∃ n, codec.decodeInteger range field = .ok ⟨some (.integer n), []⟩) ∨
          ∃ notice, notice.field? = some field ∧
            codec.decodeInteger range field = .ok ⟨none, [codec.note notice]⟩) := by
  simp only [decodeInteger, hasText.text, Except.map]
  cases text? with
  | none => exact .inr ⟨by simp, .inr ⟨.notInteger field, rfl, rfl⟩⟩
  | some text =>
    simp only [Option.some.injEq, exists_eq_left', ← range.read_eq_tooLong_iff]
    cases range.read text.toList with
    | ok n => exact .inr ⟨by simp, .inl ⟨n, rfl⟩⟩
    | error cause =>
      cases cause with
      | tooLong => exact .inl ⟨rfl, rfl⟩
      | notNumeral => exact .inr ⟨by simp, .inr ⟨.notInteger field, rfl, rfl⟩⟩
      | outOfRange => exact .inr ⟨by simp, .inr ⟨.outOfRange field, rfl, rfl⟩⟩

/-- A date is read, or there is a record of the refusal. -/
theorem decodeDate_cases (codec : Codec) (hasText : field.HasText text?) :
    (∃ when, codec.decodeDate field = .ok ⟨some (.moment when), []⟩) ∨
      codec.decodeDate field = .ok ⟨none, [codec.note (.notDate field)]⟩ := by
  simp only [decodeDate, hasText.text, Except.map]
  cases text?.bind fun text => HttpDate.read? HttpDate.defaultPivot text.toList with
  | some when => exact .inl ⟨when, rfl⟩
  | none => exact .inr rfl

/-- The log of a decoding explains why it gave no value. -/
theorem explains_of_decode (family : codec.kind ≠ .abstract) (hasText : field.HasText text?) :
    ∃ reading, codec.decode field = .ok reading ∧ codec.Explains field text? reading := by
  unfold decode
  cases kind : codec.kind with
  | abstract => exact (family kind).elim
  | integer range =>
    have passesOver : codec.PassesOverText text? ↔
        ∃ text, text? = some text ∧ IsOverlong range.signed text.toList := by
      simp [PassesOverText, kind]
    obtain ⟨overlong, read⟩ | ⟨short, ⟨n, read⟩ | ⟨notice, about, read⟩⟩ :=
      decodeInteger_cases codec range hasText
    · exact ⟨_, read, by simp, fun _ => rfl, fun _ taken =>
        (taken (passesOver.mpr overlong)).elim⟩
    · exact ⟨_, read, .of_value (by simp) (mt passesOver.mp short) (by simp)⟩
    · exact ⟨_, read, .of_record (by simp [note]) (mt passesOver.mp short)
        (List.mem_cons_self ..) about⟩
  | date =>
    have taken : ¬ codec.PassesOverText text? := by simp [PassesOverText, kind]
    obtain ⟨when, read⟩ | read := decodeDate_cases codec hasText
    · exact ⟨_, read, .of_value (by simp) taken (by simp)⟩
    · exact ⟨_, read, .of_record (by simp [note]) taken (List.mem_cons_self ..) rfl⟩
  | expires =>
    have taken : ¬ codec.PassesOverText text? := by simp [PassesOverText, kind]
    simp only [decodeExpires]
    obtain ⟨when, read⟩ | read := decodeDate_cases codec hasText <;> rw [read]
    · exact ⟨_, rfl, .of_value (by simp) taken (by simp)⟩
    · exact ⟨_, rfl, .of_record (by simp [note]) taken (List.mem_cons_self ..) rfl⟩
  | retryAfter =>
    have taken : ¬ codec.PassesOverText text? := by simp [PassesOverText, kind]
    simp only [decodeRetryAfter, hasText.stays, bind, Except.bind]
    obtain ⟨when, read⟩ | read := decodeDate_cases httpDate hasText <;> rw [read]
    · exact ⟨_, rfl, .of_value (by simp) taken (by simp)⟩
    · -- Whatever the number leaves in the log comes after the record of the date.
      obtain ⟨-, number⟩ | ⟨-, ⟨n, number⟩ | ⟨notice, -, number⟩⟩ :=
        decodeInteger_cases integer wordRange hasText <;> rw [number]
      · exact ⟨_, rfl, .of_record (by simp [note]) taken (List.mem_cons_self ..) rfl⟩
      · exact ⟨_, rfl, .of_value (by simp [note]) taken (by simp)⟩
      · exact ⟨_, rfl, .of_record (by simp [note]) taken (List.mem_cons_self ..) rfl⟩

end

/-! ## What a header leaves in the log -/

/-- The codec is one of whole numbers, and the one field is a numeral with more digits than it
reads. -/
def PassesOver (codec : Codec) (fields : List Octets) : Prop :=
  ∃ range text, codec.kind = .integer range ∧ fields = [.ofAscii text] ∧
    IsOverlong range.signed text

/-- The silent case reads the same on the text of a field as on its bytes. -/
theorem passesOverText_iff (codec : Codec) (data : Octets) :
    codec.PassesOverText ((Text.Utf8.decode? data).map String.ofList) ↔
      codec.PassesOver [data] := by
  constructor
  · rintro ⟨range, text, kind, shows', overlong⟩
    obtain ⟨chars, decoded, rfl⟩ := Option.map_eq_some_iff.mp shows'
    rw [String.toList_ofList] at overlong
    have data_eq :=
      (Text.Utf8.decode?_eq_some_iff_of_isAscii overlong.isAscii data).mp decoded
    exact ⟨range, chars, kind, congrArg (fun field => [field]) data_eq, overlong⟩
  · rintro ⟨range, text, kind, ⟨⟩, overlong⟩
    refine ⟨range, .ofList text, kind, ?_, by rwa [String.toList_ofList]⟩
    rw [Text.Utf8.decode?_ofAscii overlong.isAscii, Option.map_some]

/-- When the fields of a header hold no value, or an expiry date that has passed, then the log has
records, all of them for debugging, and for a single field one of them quotes it. The one exception
is a codec of whole numbers with a single field that is a numeral with more digits than are read:
nothing comes out of it, and the log is empty. -/
theorem log_of_decodeRaw {codec : Codec} (family : codec.kind ≠ .abstract) {raw : Value}
    {fields : List Octets} (yields : raw.iterate = .ok (fields.map .octets)) :
    ∃ reading, codec.decodeRaw raw = .ok reading ∧
      (∀ record ∈ reading.log, record.level = .debug) ∧
      (codec.PassesOver fields → reading.value = none ∧ reading.log = []) ∧
      (reading.value = none ∨ reading.value = some .past → ¬ codec.PassesOver fields →
        reading.log ≠ [] ∧ ∀ data, fields = [data] →
          ∃ record ∈ reading.log, record.Quotes (.octets data)) := by
  have passedOn : codec.decodeRaw raw = codec.decodeFields (fields.map .octets) := by
    rw [decodeRaw, yields]
    rfl
  rw [passedOn]
  cases fields with
  | nil => exact ⟨_, rfl, by simp [note], by simp [PassesOver], fun _ _ => by simp⟩
  | cons data rest =>
    cases rest with
    | cons other rest => exact ⟨_, rfl, by simp [note], by simp [PassesOver], fun _ _ => by simp⟩
    | nil =>
      obtain ⟨reading, read, explains⟩ :=
        explains_of_decode family (Value.hasText_octets data)
      refine ⟨reading, read, explains.debug, fun overlong => ?_, fun nothing taken => ?_⟩
      · rw [explains.silent ((passesOverText_iff codec data).mpr overlong)]
        exact ⟨rfl, rfl⟩
      · obtain ⟨record, member, quotes⟩ :=
          explains.quoted nothing (mt (passesOverText_iff codec data).mp taken)
        refine ⟨List.ne_nil_of_mem member, ?_⟩
        rintro _ ⟨⟩
        exact ⟨record, member, quotes⟩

/-- A thousand has to be written out. -/
theorem log_of_decodeRaw_exponent :
    ∃ reading, contentLength.decodeRaw (.tuple [.octets (.ofPhrase "1e3")]) = .ok reading ∧
      reading.value = none ∧ reading.log ≠ [] ∧
      ∃ record ∈ reading.log, record.Quotes (.octets (.ofPhrase "1e3")) := by
  have yields : (Value.tuple [.octets (.ofPhrase "1e3")]).iterate =
      .ok ([.ofPhrase "1e3"].map .octets) := rfl
  have read : contentLength.decodeRaw (.tuple [.octets (.ofPhrase "1e3")]) =
      .ok ⟨none, [contentLength.note (.notInteger (.octets (.ofPhrase "1e3")))]⟩ := rfl
  obtain ⟨reading, same, -, silent, quoted⟩ :=
    log_of_decodeRaw (show contentLength.kind ≠ .abstract by decide) yields
  cases read.symm.trans same
  have taken : ¬ contentLength.PassesOver [.ofPhrase "1e3"] := fun passed =>
    List.cons_ne_nil _ _ (silent passed).2
  obtain ⟨logged, quotes⟩ := quoted (.inl rfl) taken
  exact ⟨_, read, rfl, logged, quotes _ rfl⟩

private theorem decodeRaw_of_passesOver {codec : Codec} {data : Octets}
    (passed : codec.PassesOver [data]) :
    codec.decodeRaw (.list [.octets data]) = .ok ⟨none, []⟩ := by
  have family : codec.kind ≠ .abstract := by
    obtain ⟨range, text, kind, -⟩ := passed
    simp [kind]
  obtain ⟨reading, read, explains⟩ := explains_of_decode family (Value.hasText_octets data)
  rw [explains.silent ((passesOverText_iff ..).mpr passed)] at read
  exact read

private theorem isOverlong_replicate (signed : Bool) (count : Nat) (long : digitLimit < count) :
    IsOverlong signed (List.replicate count '1') := by
  have digits : isDigits (List.replicate count '1') = true := by
    have some : count ≠ 0 := by omega
    simp [isDigits, some]
  exact ⟨_, digits, by rwa [List.length_replicate], .inl rfl⟩

/-- A numeral with one digit more than are read is refused in silence. -/
theorem decodeRaw_overlong :
    integer.decodeRaw (.list [.octets (.ofAscii (List.replicate 4301 '1'))]) =
      .ok ⟨none, []⟩ := by
  have overlong := isOverlong_replicate false 4301 (by decide)
  generalize List.replicate 4301 '1' = text at overlong ⊢
  exact decodeRaw_of_passesOver ⟨wordRange, text, rfl, rfl, overlong⟩

end Codec

end TypedHeaders
