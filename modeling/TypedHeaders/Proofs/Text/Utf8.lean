import TypedHeaders.Proofs.Text.Case

/-! # Every text has one encoding

A text is read from the bytes that encode it, which are those that a string is made of. A byte below
128 is read as the character of that number. A byte from 128 on begins a sequence that is read as a
character that is not ASCII, since longer forms of ASCII characters are not accepted. So ASCII text is
read from the bytes of its characters, and from no others.
-/

namespace TypedHeaders.Text.Utf8

private theorem le_toNat_of_scalar? {least code : Nat} {c : Char}
    (found : scalar? least code = some c) :
    least ≤ c.toNat := by
  unfold scalar? at found
  split at found
  · rename_i fits
    obtain ⟨enough, valid⟩ := fits
    cases found
    unfold Char.ofNat
    rw [dif_pos valid]
    exact enough
  · cases found

private theorem large_of_scalar?_bind {least code : Nat} (large : 128 ≤ least) {rest : Octets}
    {text : List Char}
    (read : ((scalar? least code).bind fun c => (decode? rest).map (c :: ·)) = some text) :
    ∃ c others, text = c :: others ∧ 128 ≤ c.toNat := by
  obtain ⟨c, found, read⟩ := Option.bind_eq_some_iff.mp read
  obtain ⟨others, -, rfl⟩ := Option.map_eq_some_iff.mp read
  exact ⟨c, others, rfl, Nat.le_trans large (le_toNat_of_scalar? found)⟩

/-- A sequence of several bytes is read as a character that is not ASCII. -/
theorem head_of_decode?_of_large {a : UInt8} (large : ¬ a < 0x80) {rest : Octets} {text : List Char}
    (read : decode? (a :: rest) = some text) : ∃ c others, text = c :: others ∧ 128 ≤ c.toNat := by
  rw [decode?.eq_def] at read
  simp only [large, ↓reduceIte] at read
  match rest with
  | [] => cases read
  | b :: rest =>
    obtain ⟨y, -, read⟩ := Option.bind_eq_some_iff.mp read
    split at read
    · exact large_of_scalar?_bind (by decide) read
    · match rest with
      | [] => cases read
      | d :: rest =>
        obtain ⟨z, -, read⟩ := Option.bind_eq_some_iff.mp read
        split at read
        · exact large_of_scalar?_bind (by decide) read
        · match rest with
          | [] => cases read
          | e :: rest =>
            obtain ⟨w, -, read⟩ := Option.bind_eq_some_iff.mp read
            split at read
            · exact large_of_scalar?_bind (by decide) read
            · cases read

/-- An ASCII text has one encoding, its own characters. -/
theorem decode?_eq_some_iff_of_isAscii {text : List Char} (ascii : IsAscii text) (data : Octets) :
    decode? data = some text ↔ data = .ofAscii text := by
  constructor
  · intro read
    induction data generalizing text with
    | nil =>
      cases read
      rfl
    | cons a rest ih =>
      by_cases small : a < 0x80
      · rw [decode?.eq_def] at read
        simp only [small, ↓reduceIte] at read
        obtain ⟨others, tail, rfl⟩ := Option.map_eq_some_iff.mp read
        obtain ⟨-, ascii⟩ := (isAscii_cons ..).mp ascii
        have code : (Char.ofNat a.toNat).toNat = a.toNat := by
          have bound : a.toNat < 128 := UInt8.lt_iff_toNat_lt.mp small
          unfold Char.ofNat
          rw [dif_pos (.inl (by omega))]
          rfl
        rw [ih ascii tail, Octets.ofAscii_cons, code, UInt8.ofNat_toNat]
      · obtain ⟨c, others, rfl, large⟩ := head_of_decode?_of_large small read
        have here := ascii c (List.mem_cons_self ..)
        omega
  · rintro rfl
    exact decode?_ofAscii ascii

/-- Bytes from 128 on are part of no ASCII text. -/
theorem not_isAscii_of_decode? {data : Octets} {text : List Char} (read : decode? data = some text)
    (large : ∃ b ∈ data, 0x80 ≤ b) : ¬ IsAscii text := by
  intro ascii
  obtain rfl := (decode?_eq_some_iff_of_isAscii ascii data).mp read
  obtain ⟨b, member, large⟩ := large
  obtain ⟨c, inText, rfl⟩ := List.mem_map.mp member
  have small := ascii c inText
  rw [UInt8.le_iff_toNat_le, Octets.toNat_ofNat small] at large
  exact absurd small (Nat.not_lt.mpr large)

/-! ## Text in any language -/

private theorem toNat_lt_of_char (c : Char) : c.toNat < 0x110000 := by
  have valid := c.valid
  change c.toNat < 0xD800 ∨ 0xDFFF < c.toNat ∧ c.toNat < 0x110000 at valid
  omega

private theorem payload?_ofNat {bits : Nat} (small : bits < 64) :
    payload? (.ofNat (0x80 + bits)) = some bits := by
  have value : (UInt8.ofNat (0x80 + bits)).toNat = 0x80 + bits :=
    UInt8.toNat_ofNat_of_lt' (by simp only [UInt8.size]; omega)
  simp only [payload?, UInt8.le_iff_toNat_le, UInt8.lt_iff_toNat_lt, value, UInt8.reduceToNat]
  rw [if_pos (by omega), Nat.add_sub_cancel_left]

private theorem scalar?_eq_some (c : Char) {least code : Nat} (same : code = c.toNat)
    (enough : least ≤ c.toNat) : scalar? least code = some c := by
  rw [scalar?, same, if_pos ⟨enough, c.valid⟩, Char.ofNat_toNat]

/-- The bytes of a character are read as that character, whatever follows them. -/
theorem decode?_encodeChar_append (c : Char) (rest : Octets) :
    decode? (encodeChar c ++ rest) = (decode? rest).map (c :: ·) := by
  have last := toNat_lt_of_char c
  have lead {code : Nat} (inByte : code < 256) : (UInt8.ofNat code).toNat = code :=
    UInt8.toNat_ofNat_of_lt' inByte
  have units := payload?_ofNat (show c.toNat % 64 < 64 by omega)
  have second := payload?_ofNat (show c.toNat / 64 % 64 < 64 by omega)
  have third := payload?_ofNat (show c.toNat / 4096 % 64 < 64 by omega)
  rw [encodeChar]
  -- In each case the first byte lies in the range that announces so many bytes.
  by_cases one : c.toNat < 0x80
  · rw [if_pos one, List.cons_append, List.nil_append, decode?.eq_def]
    simp only [UInt8.lt_iff_toNat_lt, lead (show c.toNat < 256 by omega), UInt8.reduceToNat]
    rw [if_pos one, Char.ofNat_toNat]
  by_cases two : c.toNat < 0x800
  · rw [if_neg one, if_pos two]
    simp only [List.cons_append, List.nil_append, decode?.eq_def (_ :: _), units,
      UInt8.le_iff_toNat_le, UInt8.lt_iff_toNat_lt, lead (show 0xC0 + c.toNat / 64 < 256 by omega),
      UInt8.reduceToNat, bind, Option.bind_some]
    rw [if_neg (by omega), if_pos (by omega), scalar?_eq_some c (by omega) (by omega),
      Option.bind_some]
  by_cases three : c.toNat < 0x10000
  · rw [if_neg one, if_neg two, if_pos three]
    simp only [List.cons_append, List.nil_append, decode?.eq_def (_ :: _), units, second,
      UInt8.le_iff_toNat_le, UInt8.lt_iff_toNat_lt, lead (show 0xE0 + c.toNat / 4096 < 256 by omega),
      UInt8.reduceToNat, bind, Option.bind_some]
    rw [if_neg (by omega), if_neg (by omega), if_pos (by omega),
      scalar?_eq_some c (by omega) (by omega), Option.bind_some]
  · rw [if_neg one, if_neg two, if_neg three]
    simp only [List.cons_append, List.nil_append, decode?.eq_def (_ :: _), units, second, third,
      UInt8.le_iff_toNat_le, UInt8.lt_iff_toNat_lt,
      lead (show 0xF0 + c.toNat / 262144 < 256 by omega), UInt8.reduceToNat, bind, Option.bind_some]
    rw [if_neg (by omega), if_neg (by omega), if_neg (by omega), if_pos (by omega),
      scalar?_eq_some c (by omega) (by omega), Option.bind_some]

/-- Every text is decoded from its encoding. -/
theorem decode?_encode (text : List Char) : decode? (encode text) = some text := by
  induction text with
  | nil => rfl
  | cons c text ih =>
    change decode? (encodeChar c ++ encode text) = some (c :: text)
    rw [decode?_encodeChar_append, ih, Option.map_some]

private theorem encodeChar_eq_utf8EncodeChar (c : Char) :
    encodeChar c = String.utf8EncodeChar c := by
  have last := toNat_lt_of_char c
  rw [encodeChar, String.utf8EncodeChar]
  simp only [Char.toNat_val]
  by_cases one : c.toNat < 0x80
  · rw [if_pos one, if_pos (by omega)]
  by_cases two : c.toNat < 0x800
  · rw [if_neg one, if_pos two, if_neg (by omega), if_pos (by omega),
      Nat.mod_eq_of_lt (show c.toNat / 64 < 32 by omega), Nat.add_comm 0xC0, Nat.add_comm 0x80]
  by_cases three : c.toNat < 0x10000
  · rw [if_neg one, if_neg two, if_pos three, if_neg (by omega), if_neg (by omega),
      if_pos (by omega), Nat.mod_eq_of_lt (show c.toNat / 4096 < 16 by omega)]
    simp only [Nat.add_comm]
  · rw [if_neg one, if_neg two, if_neg three, if_neg (by omega), if_neg (by omega),
      if_neg (by omega), Nat.mod_eq_of_lt (show c.toNat / 262144 < 8 by omega)]
    simp only [Nat.add_comm]

/-- The encoding of a string is the bytes that it is made of. -/
theorem encode_toList (s : String) : encode s.toList = s.toUTF8.data.toList := by
  change s.toList.flatMap encodeChar = s.toByteArray.data.toList
  rw [funext encodeChar_eq_utf8EncodeChar, ← String.utf8Encode_toList, List.utf8Encode,
    List.data_toByteArray]

/-- The decoder reads back what strings are stored as. -/
theorem decode?_toUTF8 (s : String) : decode? s.toUTF8.data.toList = some s.toList := by
  rw [← encode_toList, decode?_encode]

end TypedHeaders.Text.Utf8
