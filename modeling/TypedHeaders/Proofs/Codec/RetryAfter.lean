import TypedHeaders.Proofs.Codec.Reading

/-! # When to try again: a date or a delay

A field that tells when to try again holds a date or a number of seconds, and never both: every date
has a blank in it and no numeral has one. So it does not matter which of the two is looked for first,
and neither is taken for the other after it was written.
-/

namespace TypedHeaders

private theorem WritesInteger.blank_not_mem {signed : Bool} {text : List Char} {n : Int}
    (writes : WritesInteger signed text n) : ' ' ∉ text := by
  intro blank
  obtain ⟨digits, isDigits, -, ⟨rfl, -⟩ | ⟨-, rfl, -⟩⟩ := writes
  · cases ((isDigits_iff _).mp isDigits).2 ' ' blank
  · rcases List.mem_cons.mp blank with minus | blank
    · cases minus
    · cases ((isDigits_iff _).mp isDigits).2 ' ' blank

/-- No text is a date and a number, of whatever range. -/
theorem named?_eq_none_or_written?_eq_none (range : IntegerRange) (text? : Option String) :
    HttpDate.named? text? = none ∨ range.written? text? = none := by
  cases named : HttpDate.named? text? with
  | none => exact .inl rfl
  | some value =>
    refine .inr (Option.eq_none_iff_forall_ne_some.mpr fun number written => ?_)
    obtain ⟨text, form, fields, rfl, spelled⟩ := HttpDate.exists_spelled_of_named? named
    obtain ⟨_, n, ⟨⟩, writes⟩ := IntegerRange.exists_writes_of_written? written
    exact writes.blank_not_mem spelled.blank_mem

/-- The tag of a value that tells when to try again, where a moment or a number may come without
it. -/
def Value.retryTag? : Value → Option Tag
  | .tagged tag _ => some tag
  | .moment _ => some .retryDate
  | .integer _ => some .retryDelay
  | _ => none

private theorem Kind.Holds.exists_retryTag {value normal : Value}
    (holds : Kind.retryAfter.Holds value) (isNormal : Kind.retryAfter.normal? value = some normal) :
    ∃ tag content, value.retryTag? = some tag ∧ normal = .tagged tag content := by
  cases holds with
  | retryDate =>
    obtain ⟨start, -, rfl⟩ := Option.map_eq_some_iff.mp isNormal
    exact ⟨_, _, rfl, rfl⟩
  | taggedRetryDate =>
    obtain ⟨start, -, rfl⟩ := Option.map_eq_some_iff.mp isNormal
    exact ⟨_, _, rfl, rfl⟩
  | retryDelay =>
    cases isNormal
    exact ⟨_, _, rfl, rfl⟩
  | taggedRetryDelay =>
    cases isNormal
    exact ⟨_, _, rfl, rfl⟩

namespace Codec

private theorem holds_of_encodeRetryAfter {value : Value} {data : Octets}
    (written : encodeRetryAfter value = .ok data) : Kind.retryAfter.Holds value := by
  have settles := settles_encodeRetryAfter value
  rw [written] at settles
  cases settles with
  | written data shows holds => exact holds

/-- A date and a delay are told apart on every field, so that they may be looked for in either order,
and whatever was written as the one is read as the one. -/
theorem decode_retryAfter_disjoint {codec : Codec} (kind : codec.kind = .retryAfter) :
    (∀ data : Octets, ∃ date delay reading,
      httpDate.decode (.octets data) = .ok date ∧ integer.decode (.octets data) = .ok delay ∧
        codec.decode (.octets data) = .ok reading ∧ (date.value = none ∨ delay.value = none) ∧
        reading.value = (date.value.map (.tagged .retryDate)).or
          (delay.value.map (.tagged .retryDelay)) ∧
        reading.value = (delay.value.map (.tagged .retryDelay)).or
          (date.value.map (.tagged .retryDate)) ∧
        (∀ when, reading.value = some (.tagged .retryDate when) ↔ date.value = some when) ∧
        (∀ seconds, reading.value = some (.tagged .retryDelay seconds) ↔
          delay.value = some seconds) ∧
        (reading.value = none ↔ date.value = none ∧ delay.value = none)) ∧
      ∀ value data, codec.encode value = .ok data → ∃ tag content log,
        value.retryTag? = some tag ∧
          codec.decode (.octets data) = .ok ⟨some (.tagged tag content), log⟩ := by
  constructor
  · intro data
    have hasText := Value.hasText_octets data
    have family : codec.kind ≠ .abstract := by simp [kind]
    obtain ⟨_, date⟩ := decodeDate_of_hasText httpDate hasText
    obtain ⟨_, delay⟩ := decodeInteger_of_hasText integer wordRange hasText
    obtain ⟨_, read⟩ := decode_of_hasText family hasText
    -- A date holds a blank and a numeral holds none, so one of the two readings is missing.
    have apart := named?_eq_none_or_written?_eq_none wordRange
      ((Text.Utf8.decode? data).map String.ofList)
    rw [kind, Kind.read?] at read
    refine ⟨_, _, _, date, delay, read, apart, rfl, ?_⟩
    rcases apart with noDate | noDelay
    · rw [noDate]
      simp
    · rw [noDelay]
      simp
  · intro value data written
    unfold encode at written
    rw [kind] at written
    unfold decode
    rw [kind]
    obtain ⟨normal, log, isNormal, read⟩ := decode_encodeRetryAfter written
    obtain ⟨tag, content, hasTag, rfl⟩ := (holds_of_encodeRetryAfter written).exists_retryTag isNormal
    exact ⟨tag, content, log, hasTag, read⟩

theorem decode_retryAfter_disjoint_delay :
    (∃ content log, retryAfter.decode (.octets (.ofPhrase "120")) =
        .ok ⟨some (.tagged .retryDelay content), log⟩) ∧
      ∃ reading, retryAfter.decode (.octets (.ofPhrase "007")) = .ok reading ∧
        reading.value = some (.tagged .retryDelay (.integer 7)) := by
  obtain ⟨fields, writes⟩ := decode_retryAfter_disjoint (show retryAfter.kind = .retryAfter from rfl)
  constructor
  · have written : retryAfter.encode (.tagged .retryDelay (.integer 120)) = .ok (.ofPhrase "120") :=
      rfl
    obtain ⟨tag, content, log, hasTag, read⟩ := writes _ _ written
    cases hasTag
    exact ⟨content, log, read⟩
  · obtain ⟨date, delay, reading, -, isDelay, read, -, -, -, -, found, -⟩ := fields (.ofPhrase "007")
    have seven : integer.decode (.octets (.ofPhrase "007")) = .ok ⟨some (.integer 7), []⟩ := rfl
    cases seven.symm.trans isDelay
    exact ⟨reading, read, (found _).mpr rfl⟩

end Codec

end TypedHeaders
