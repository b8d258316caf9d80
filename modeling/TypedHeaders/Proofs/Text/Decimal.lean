import Mathlib.Algebra.Ring.Nat
import TypedHeaders.Proofs.Text.Ascii

/-! # Decimal digits

A fixed number of digits writes a number below the power of ten. Pieces of digits can be put
together and cut apart again, and the value of the whole is that of the pieces in their places.
-/

namespace TypedHeaders

/-- A text of so many decimal digits that write a number. -/
def IsDecimal (width : Nat) (text : List Char) (value : Nat) : Prop :=
  text.length = width ∧ (∀ c ∈ text, c.isDigit) ∧ Nat.ofDigitChars 10 text 0 = value

/-- Decimals side by side make one decimal, with the first shifted by the width of the second. -/
theorem IsDecimal.append {first second : List Char} {width width' value value' : Nat}
    (tens : IsDecimal width first value) (units : IsDecimal width' second value') :
    IsDecimal (width + width') (first ++ second) (value * 10 ^ width' + value') := by
  obtain ⟨length, digits, rfl⟩ := tens
  obtain ⟨length', digits', rfl⟩ := units
  refine ⟨by simp [length, length'], ?_, ?_⟩
  · intro c member
    rcases List.mem_append.mp member with before | after
    · exact digits c before
    · exact digits' c after
  · rw [Nat.ofDigitChars_append, Nat.ofDigitChars_eq_ofDigitChars_zero, length', Nat.mul_comm]

/-- Digits can be cut at any width. -/
theorem IsDecimal.split {text : List Char} {width width' total : Nat}
    (decimal : IsDecimal (width + width') text total) :
    ∃ first second value value', text = first ++ second ∧ IsDecimal width first value ∧
      IsDecimal width' second value' ∧ total = value * 10 ^ width' + value' := by
  obtain ⟨length, digits, rfl⟩ := decimal
  have tail : (text.drop width).length = width' := by
    rw [List.length_drop, length, Nat.add_sub_cancel_left]
  refine ⟨text.take width, text.drop width, _, _, (List.take_append_drop width text).symm,
    ⟨?_, fun c member => digits c (List.mem_of_mem_take member), rfl⟩,
    ⟨tail, fun c member => digits c (List.mem_of_mem_drop member), rfl⟩, ?_⟩
  · rw [List.length_take, length]
    omega
  · calc
      Nat.ofDigitChars 10 text 0 = Nat.ofDigitChars 10 (text.take width ++ text.drop width) 0 := by
        rw [List.take_append_drop]
      _ = _ := by
        rw [Nat.ofDigitChars_append, Nat.ofDigitChars_eq_ofDigitChars_zero, tail, Nat.mul_comm]

theorem isDecimal_one_iff (text : List Char) (value : Nat) :
    IsDecimal 1 text value ↔ ∃ c, text = [c] ∧ c.isDigit ∧ value = c.toNat - '0'.toNat := by
  constructor
  · rintro ⟨length, digits, rfl⟩
    obtain ⟨c, rfl⟩ := List.length_eq_one_iff.mp length
    refine ⟨c, rfl, digits c (List.mem_singleton_self c), ?_⟩
    simp [Nat.ofDigitChars_cons]
  · rintro ⟨c, rfl, digit, rfl⟩
    refine ⟨rfl, by simpa using digit, ?_⟩
    simp [Nat.ofDigitChars_cons]

/-- A piece that is not empty begins with a digit. -/
theorem IsDecimal.head {width : Nat} {text : List Char} {value : Nat}
    (decimal : IsDecimal (width + 1) text value) :
    ∃ c rest, text = c :: rest ∧ c.isDigit := by
  obtain ⟨length, digits, -⟩ := decimal
  cases text with
  | nil => simp at length
  | cons c rest => exact ⟨c, rest, rfl, digits c (List.mem_cons_self ..)⟩

/-- A decimal is below the power of ten of its width. -/
theorem IsDecimal.lt {width : Nat} {text : List Char} {value : Nat}
    (decimal : IsDecimal width text value) : value < 10 ^ width := by
  induction width generalizing text value with
  | zero =>
    obtain ⟨length, -, rfl⟩ := decimal
    obtain rfl := List.length_eq_zero_iff.mp length
    decide
  | succ width ih =>
    obtain ⟨first, second, tens, units, rfl, upper, unit, rfl⟩ := decimal.split
    obtain ⟨c, -, digit, rfl⟩ := (isDecimal_one_iff _ _).mp unit
    have bound := ih upper
    have digitBound : c.toNat ≤ 57 := (Char.isDigit_iff_toNat.mp digit).2
    simp only [Nat.pow_succ, Nat.pow_zero, Char.reduceToNat]
    omega

/-- A number is written by one text of each width at most. -/
theorem IsDecimal.unique {width : Nat} {text text' : List Char} {value : Nat}
    (decimal : IsDecimal width text value) (decimal' : IsDecimal width text' value) :
    text = text' := by
  induction width generalizing text text' value with
  | zero =>
    rw [List.length_eq_zero_iff.mp decimal.1, List.length_eq_zero_iff.mp decimal'.1]
  | succ width ih =>
    obtain ⟨first, second, tens, units, rfl, upper, unit, rfl⟩ := decimal.split
    obtain ⟨first', second', tens', units', rfl, upper', unit', total⟩ := decimal'.split
    obtain ⟨c, rfl, digit, rfl⟩ := (isDecimal_one_iff _ _).mp unit
    obtain ⟨c', rfl, digit', rfl⟩ := (isDecimal_one_iff _ _).mp unit'
    have bounds := Char.isDigit_iff_toNat.mp digit
    have bounds' := Char.isDigit_iff_toNat.mp digit'
    simp only [Char.reduceToNat] at bounds bounds' total
    obtain ⟨rfl, same⟩ : tens = tens' ∧ c.toNat = c'.toNat := by omega
    rw [ih upper upper', Char.toNat_inj.mp same]

/-- The digits of a number, without zeros before them, write it. -/
theorem isDecimal_toDigits (n : Nat) : IsDecimal (Nat.toDigits 10 n).length (Nat.toDigits 10 n) n :=
  ⟨rfl, fun _ member => Nat.isDigit_of_mem_toDigits (by decide) (by decide) member,
    Nat.ofDigitChars_ten_toDigits⟩

/-- Digits that do not begin with a zero are the digits of the number that they write. -/
theorem toDigits_of_head_ne_zero {c : Char} {rest : List Char} (notZero : c ≠ '0')
    (digits : ∀ d ∈ c :: rest, d.isDigit) :
    Nat.toDigits 10 (Nat.ofDigitChars 10 (c :: rest) 0) = c :: rest := by
  have decimal : IsDecimal (c :: rest).length (c :: rest) (Nat.ofDigitChars 10 (c :: rest) 0) :=
    ⟨rfl, digits, rfl⟩
  -- The first digit counts at least once at its place, so fewer digits cannot write the number.
  have large : 10 ^ rest.length ≤ Nat.ofDigitChars 10 (c :: rest) 0 := by
    have digit := Char.isDigit_iff_toNat.mp (digits c (List.mem_cons_self ..))
    have first : c.toNat ≠ 48 := fun same => notZero (Char.toNat_inj.mp same)
    have positive : 1 ≤ c.toNat - '0'.toNat := by
      simp only [Char.reduceToNat] at digit ⊢
      omega
    rw [Nat.ofDigitChars_cons, Nat.ofDigitChars_eq_ofDigitChars_zero, Nat.mul_zero, Nat.zero_add]
    exact Nat.le_add_right_of_le (Nat.le_mul_of_pos_right _ positive)
  generalize Nat.ofDigitChars 10 (c :: rest) 0 = n at decimal large
  have short : (Nat.toDigits 10 n).length ≤ (c :: rest).length :=
    (Nat.length_toDigits_le_iff (by decide) (Nat.succ_pos _)).mpr decimal.lt
  have long : rest.length < (Nat.toDigits 10 n).length := by
    rcases Nat.eq_zero_or_pos rest.length with none | some
    · rw [none]
      exact List.length_pos_iff.mpr Nat.toDigits_ne_nil
    · by_contra fewer
      have small : n < 10 ^ rest.length :=
        (Nat.length_toDigits_le_iff (by decide) some).mp (Nat.le_of_not_lt fewer)
      omega
  have length : (Nat.toDigits 10 n).length = (c :: rest).length := by
    simp only [List.length_cons] at short ⊢
    omega
  exact (length ▸ isDecimal_toDigits n).unique decimal

/-- The digits of a number begin with a zero only if that is all there is. -/
theorem eq_nil_of_toDigits_eq {n : Nat} {rest : List Char}
    (begins : Nat.toDigits 10 n = '0' :: rest) : rest = [] := by
  obtain ⟨-, digits, value⟩ := isDecimal_toDigits n
  rw [begins] at digits value
  have small : n < 10 ^ rest.length := by
    apply IsDecimal.lt ⟨rfl, fun c member => digits c (List.mem_cons_of_mem _ member), _⟩
    simpa [Nat.ofDigitChars_cons] using value
  by_contra some
  have short := (Nat.length_toDigits_le_iff (by decide) (List.length_pos_iff.mpr some)).mpr small
  rw [begins, List.length_cons] at short
  omega

theorem isPlainText_digits {text : List Char} (digits : ∀ c ∈ text, c.isDigit) :
    IsPlainText text := by
  intro c member
  have bounds := Char.isDigit_iff_toNat.mp (digits c member)
  simp only [Char.reduceToNat] at bounds
  omega

end TypedHeaders
