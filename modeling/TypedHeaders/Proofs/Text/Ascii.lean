import TypedHeaders.Text.Utf8

/-! # ASCII text as bytes

Text of visible ASCII characters and blanks is written one byte for each character, and UTF-8 reads
the same text from those bytes.
-/

namespace TypedHeaders

/-! ## Letters -/

/-- The letters are the two ranges of code points. -/
theorem isAlpha_iff (c : Char) :
    c.isAlpha ↔ 65 ≤ c.toNat ∧ c.toNat ≤ 90 ∨ 97 ≤ c.toNat ∧ c.toNat ≤ 122 := by
  unfold Char.isAlpha Char.isUpper Char.isLower
  simp [UInt32.le_iff_toNat_le, ← Char.toNat_val]

/-- Lowering a capital adds 32 to its code point. -/
theorem toNat_toLower (c : Char) :
    c.toLower.toNat = if 65 ≤ c.toNat ∧ c.toNat ≤ 90 then c.toNat + 32 else c.toNat := by
  have upper : (c.val ≥ 'A'.val ∧ c.val ≤ 'Z'.val) ↔ 65 ≤ c.toNat ∧ c.toNat ≤ 90 := by
    simp [UInt32.le_iff_toNat_le, ← Char.toNat_val]
  unfold Char.toLower
  by_cases bounds : 65 ≤ c.toNat ∧ c.toNat ≤ 90
  · simp only [upper, bounds, and_self, ↓reduceDIte, ↓reduceIte]
    change (c.val + 32).toNat = c.toNat + 32
    rw [UInt32.toNat_add, Char.toNat_val]
    change (c.toNat + 32) % 2 ^ 32 = c.toNat + 32
    omega
  · simp only [upper, bounds, ↓reduceDIte, ↓reduceIte]

/-! ## Plain text -/

/-- Text of visible ASCII characters and blanks. -/
def IsPlainText (text : List Char) : Prop := ∀ c ∈ text, 32 ≤ c.toNat ∧ c.toNat < 127

instance (text : List Char) : Decidable (IsPlainText text) :=
  List.decidableBAll (fun c : Char => 32 ≤ c.toNat ∧ c.toNat < 127) text

@[simp]
theorem isPlainText_nil : IsPlainText [] := by simp [IsPlainText]

@[simp]
theorem isPlainText_cons (c : Char) (text : List Char) :
    IsPlainText (c :: text) ↔ (32 ≤ c.toNat ∧ c.toNat < 127) ∧ IsPlainText text := by
  simp only [IsPlainText, List.forall_mem_cons]

@[simp]
theorem isPlainText_append (text text' : List Char) :
    IsPlainText (text ++ text') ↔ IsPlainText text ∧ IsPlainText text' := by
  simp only [IsPlainText, List.forall_mem_append]

namespace Octets

@[simp]
theorem ofAscii_nil : ofAscii [] = [] := rfl

@[simp]
theorem ofAscii_cons (c : Char) (text : List Char) :
    ofAscii (c :: text) = UInt8.ofNat c.toNat :: ofAscii text := rfl

/-- The byte of an ASCII character stands for that character. -/
theorem toNat_ofNat {c : Char} (ascii : c.toNat < 128) : (UInt8.ofNat c.toNat).toNat = c.toNat := by
  rw [UInt8.toNat_ofNat']
  omega

/-- Bytes in lower case have no capital letters left to be made small. -/
theorem lower_lower (data : Octets) : data.lower.lower = data.lower := by
  rw [lower, lower, List.map_map]
  apply List.map_congr_left
  intro b _
  by_cases capital : 65 ≤ b ∧ b ≤ 90
  · have small : ¬ (65 ≤ b + 32 ∧ b + 32 ≤ 90) := by
      simp only [UInt8.le_iff_toNat_le, UInt8.toNat_add, UInt8.reduceToNat] at capital ⊢
      omega
    simp only [Function.comp_apply, capital, and_self, ↓reduceIte, small]
  · simp only [Function.comp_apply, capital, ↓reduceIte]

end Octets

namespace Text.Utf8

/-- The bytes of an ASCII text are decoded to that text. -/
theorem decode?_ofAscii {text : List Char} (ascii : ∀ c ∈ text, c.toNat < 128) :
    decode? (.ofAscii text) = some text := by
  induction text with
  | nil => rfl
  | cons c text ih =>
    have here := ascii c (List.mem_cons_self ..)
    have rest := ih fun c' member => ascii c' (List.mem_cons_of_mem _ member)
    have small : UInt8.ofNat c.toNat < 0x80 := by
      rw [UInt8.lt_iff_toNat_lt, Octets.toNat_ofNat here]
      exact here
    rw [Octets.ofAscii_cons, decode?.eq_def]
    simp only [small, ↓reduceIte, rest, Option.map_some, Octets.toNat_ofNat here, Char.ofNat_toNat]

end Text.Utf8

end TypedHeaders
