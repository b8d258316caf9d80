import TypedHeaders.Proofs.Codec.Domain
import TypedHeaders.Proofs.Text.Utf8

/-! # The fields that hold a number

A header of whole numbers reads a number from exactly the bytes of its numerals: one or more digits,
not too many of them, after at most one minus sign where the range has negative numbers. From all
other bytes nothing comes out, and reading never fails.
-/

namespace TypedHeaders

theorem isAscii_of_isDigits {digits : List Char} (isDigits : isDigits digits = true) :
    Text.IsAscii digits := by
  intro c member
  have plain := isPlainText_digits ((isDigits_iff _).mp isDigits).2 c member
  omega

/-- A numeral of the grammar is ASCII. -/
theorem WritesInteger.isAscii {signed : Bool} {text : List Char} {n : Int}
    (writes : WritesInteger signed text n) : Text.IsAscii text := by
  obtain ⟨digits, isDigits, -, ⟨rfl, -⟩ | ⟨-, rfl, -⟩⟩ := writes
  · exact isAscii_of_isDigits isDigits
  · exact (Text.isAscii_cons ..).mpr ⟨by decide, isAscii_of_isDigits isDigits⟩

namespace Codec

/-- What comes out of bytes is the number of the range that their text writes, if it writes one. -/
theorem decodeInteger_octets (codec : Codec) (range : IntegerRange) (data : Octets) :
    ∃ reading, codec.decodeInteger range (.octets data) = .ok reading ∧
      ∀ value, reading.value = some value ↔ ∃ n text, value = .integer n ∧
        Text.Utf8.decode? data = some text ∧ range.read text = .ok n := by
  refine ⟨_, rfl, fun value => ?_⟩
  cases decoded : Text.Utf8.decode? data with
  | none => simp [decoded]
  | some text =>
    simp only [decoded, Option.map_some, String.toList_ofList, Option.some.injEq]
    cases read : range.read text with
    | ok n => simp [read, eq_comm]
    | error cause => cases cause <;> simp [read]

/-- A codec of whole numbers reads a number from the bytes of its numerals if the number lies in the
range, and from no other bytes. -/
theorem decode_octets_eq_integer_iff {codec : Codec} {range : IntegerRange}
    (kind : codec.kind = .integer range) (data : Octets) :
    ∃ reading, codec.decode (.octets data) = .ok reading ∧
      ∀ value, reading.value = some value ↔ ∃ n text, value = .integer n ∧
        data = .ofAscii text ∧ WritesInteger range.signed text n ∧
        (if range.signed then -2 ^ range.bits else 0) ≤ n ∧ n ≤ 2 ^ range.bits - 1 := by
  obtain ⟨reading, decoded, found⟩ := codec.decodeInteger_octets range data
  have isDecoded : codec.decode (.octets data) = .ok reading := by
    simp only [decode, kind, decoded]
  refine ⟨reading, isDecoded, fun value => (found value).trans ?_⟩
  refine exists_congr fun n => exists_congr fun text => and_congr_right fun _ => ?_
  rw [range.read_eq_ok_iff, contains_iff]
  constructor
  · rintro ⟨read, writes, inRange⟩
    exact ⟨(Text.Utf8.decode?_eq_some_iff_of_isAscii writes.isAscii data).mp read, writes, inRange⟩
  · rintro ⟨same, writes, inRange⟩
    exact ⟨(Text.Utf8.decode?_eq_some_iff_of_isAscii writes.isAscii data).mpr same, writes, inRange⟩

theorem decode_octets_eq_integer_iff_narrow :
    let codec := Codec.custom (.new 0) (.integer ⟨true, 3⟩) "Narrow" none
    (∃ reading, codec.decode (.octets (.ofAscii "-008".toList)) = .ok reading ∧
      reading.value = some (.integer (-8))) ∧
    ∃ reading, codec.decode (.octets (.ofAscii "8".toList)) = .ok reading ∧
      reading.value ≠ some (.integer 8) := by
  intro codec
  have kind : codec.kind = .integer ⟨true, 3⟩ := rfl
  obtain ⟨low, decoded, found⟩ := decode_octets_eq_integer_iff kind (.ofAscii "-008".toList)
  obtain ⟨high, decoded', found'⟩ := decode_octets_eq_integer_iff kind (.ofAscii "8".toList)
  refine ⟨⟨low, decoded, (found _).mpr ⟨-8, "-008".toList, rfl, rfl, ?_, by decide, by decide⟩⟩,
    ⟨high, decoded', ?_⟩⟩
  · exact ⟨"008".toList, by decide, by decide, .inr ⟨rfl, rfl, by decide⟩⟩
  · intro eight
    obtain ⟨n, text, same, -, -, -, bound⟩ := (found' _).mp eight
    cases same
    exact absurd bound (by decide)

end Codec

end TypedHeaders
