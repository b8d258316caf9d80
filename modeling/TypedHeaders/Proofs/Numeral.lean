import TypedHeaders.Numeral
import TypedHeaders.Proofs.Text.Decimal

/-! # Numerals and the numbers that they stand for

A range reads exactly the numerals of its numbers that do not have too many digits. One of them is
the numeral that is written for the number, which has no more digits than any other: a range that
holds a negative number is signed, and so admits the minus sign of its numeral.
-/

namespace TypedHeaders

/-- One or more digits that write a number, where a minus sign may stand before them only if it is
signed. -/
def WritesInteger (signed : Bool) (text : List Char) (n : Int) : Prop :=
  ∃ digits, isDigits digits = true ∧ digits.length ≤ digitLimit ∧
    (text = digits ∧ n = ↑(Nat.ofDigitChars 10 digits 0) ∨
      signed = true ∧ text = '-' :: digits ∧ n = -↑(Nat.ofDigitChars 10 digits 0))

/-- The digit test accepts the texts that are not empty and hold digits only. -/
theorem isDigits_iff (text : List Char) :
    isDigits text = true ↔ text ≠ [] ∧ ∀ c ∈ text, c.isDigit := by
  simp [isDigits]

theorem isDigits_toDigits (n : Nat) : isDigits (Nat.toDigits 10 n) = true :=
  (isDigits_iff _).mpr ⟨Nat.toDigits_ne_nil, fun _ member =>
    Nat.isDigit_of_mem_toDigits (by decide) (by decide) member⟩

/-- Digits begin with a digit, and so not with a minus sign. -/
theorem ne_minus_of_isDigits {text : List Char} (digits : isDigits text = true)
    (rest : List Char) : text ≠ '-' :: rest := by
  rintro rfl
  simp [isDigits] at digits

theorem isPlainText_numeral (n : Int) : IsPlainText (numeral n) := by
  have digits := isPlainText_digits ((isDigits_iff _).mp (isDigits_toDigits n.natAbs)).2
  unfold numeral
  split
  · simpa using digits
  · exact digits

/-- A numeral that is read is within the digit limit, so what it names can be printed again. -/
theorem WritesInteger.digitCount_le {signed : Bool} {text : List Char} {n : Int}
    (writes : WritesInteger signed text n) : digitCount n ≤ digitLimit := by
  obtain ⟨digits, isDigits, short, value⟩ := writes
  obtain ⟨notEmpty, every⟩ := (isDigits_iff _).mp isDigits
  have size : n.natAbs = Nat.ofDigitChars 10 digits 0 := by
    rcases value with ⟨-, rfl⟩ | ⟨-, -, rfl⟩ <;> omega
  have bound : n.natAbs < 10 ^ digits.length := IsDecimal.lt ⟨rfl, every, size.symm⟩
  have positive : 0 < digits.length := List.length_pos_iff.mpr notEmpty
  exact Nat.le_trans ((Nat.length_toDigits_le_iff (by decide) positive).mpr bound) short

/-! ## The one numeral of each number -/

/-- A numeral in its shortest form: `0`, or digits that do not begin with a zero, before which there
may be a minus sign if the numeral is signed. -/
inductive IsCanonicalNumeral (signed : Bool) : List Char → Prop
  | zero : IsCanonicalNumeral signed ['0']
  | positive {c : Char} {rest : List Char} (notZero : c ≠ '0')
      (digits : ∀ d ∈ c :: rest, d.isDigit) : IsCanonicalNumeral signed (c :: rest)
  | negative {c : Char} {rest : List Char} (isSigned : signed = true) (notZero : c ≠ '0')
      (digits : ∀ d ∈ c :: rest, d.isDigit) : IsCanonicalNumeral signed ('-' :: c :: rest)

private theorem numeral_natCast (n : Nat) : numeral n = Nat.toDigits 10 n := by
  rw [numeral, if_neg (Int.not_lt.mpr (Int.natCast_nonneg n)), Int.natAbs_natCast]

private theorem numeral_neg_natCast {n : Nat} (positive : 0 < n) :
    numeral (-n) = '-' :: Nat.toDigits 10 n := by
  rw [numeral, if_pos (by omega), Int.natAbs_neg, Int.natAbs_natCast]

private theorem toDigits_cases (n : Nat) :
    Nat.toDigits 10 n = ['0'] ∧ n = 0 ∨
      ∃ c rest, Nat.toDigits 10 n = c :: rest ∧ c ≠ '0' ∧ ∀ d ∈ c :: rest, d.isDigit := by
  have notNil : Nat.toDigits 10 n ≠ [] := Nat.toDigits_ne_nil
  obtain ⟨c, rest, begins⟩ := List.exists_cons_of_ne_nil notNil
  by_cases zero : c = '0'
  · subst zero
    obtain rfl := eq_nil_of_toDigits_eq begins
    have value : Nat.ofDigitChars 10 (Nat.toDigits 10 n) 0 = n := Nat.ofDigitChars_ten_toDigits
    rw [begins] at value
    exact .inl ⟨begins, value.symm⟩
  · exact .inr ⟨c, rest, begins, zero, begins ▸ ((isDigits_iff _).mp (isDigits_toDigits n)).2⟩

/-- The numeral that is written for a number is canonical. -/
theorem isCanonicalNumeral_numeral {signed : Bool} {n : Int} (isSigned : n < 0 → signed = true) :
    IsCanonicalNumeral signed (numeral n) := by
  unfold numeral
  split
  · rename_i negative
    rcases toDigits_cases n.natAbs with ⟨-, zero⟩ | ⟨c, rest, eq, notZero, digits⟩
    · omega
    · rw [eq]
      exact .negative (isSigned negative) notZero digits
  · rcases toDigits_cases n.natAbs with ⟨eq, -⟩ | ⟨c, rest, eq, notZero, digits⟩
    · rw [eq]
      exact .zero
    · rw [eq]
      exact .positive notZero digits

/-- A canonical text that writes a number is the numeral that is written for it. -/
theorem IsCanonicalNumeral.eq_numeral {signed : Bool} {text : List Char}
    (canonical : IsCanonicalNumeral signed text) {n : Int} (writes : WritesInteger signed text n) :
    numeral n = text := by
  obtain ⟨digits, isDigits, -, ⟨rfl, rfl⟩ | ⟨-, rfl, rfl⟩⟩ := writes
  · rw [numeral_natCast]
    cases canonical with
    | zero => rfl
    | positive notZero digits => exact toDigits_of_head_ne_zero notZero digits
    | negative => exact absurd rfl (ne_minus_of_isDigits isDigits _)
  · cases canonical with
    | positive notZero digits => cases digits '-' (List.mem_cons_self ..)
    | @negative c rest isSigned notZero digits =>
      have same := toDigits_of_head_ne_zero notZero digits
      have positive : 0 < Nat.ofDigitChars 10 (c :: rest) 0 := by
        apply Nat.pos_of_ne_zero
        intro zero
        rw [zero] at same
        exact notZero (List.cons.inj same).1.symm
      rw [numeral_neg_natCast positive, same]

theorem IsCanonicalNumeral.isDigit {text : List Char} (canonical : IsCanonicalNumeral false text) :
    ∀ c ∈ text, c.isDigit := by
  cases canonical with
  | zero => exact List.all_eq_true.mp (by decide)
  | positive notZero digits => exact digits
  | negative isSigned => cases isSigned

theorem IsCanonicalNumeral.isPlainText {signed : Bool} {text : List Char}
    (canonical : IsCanonicalNumeral signed text) : IsPlainText text := by
  cases canonical with
  | zero => decide
  | positive notZero digits => exact isPlainText_digits digits
  | negative isSigned notZero digits =>
    exact (isPlainText_cons ..).mpr ⟨by decide, isPlainText_digits digits⟩

namespace IntegerRange

/-- Only a signed range holds a negative integer. -/
theorem signed_of_contains_negative {range : IntegerRange} {n : Int} (contains : range.contains n)
    (negative : n < 0) : range.signed = true := by
  cases signed : range.signed with
  | true => rfl
  | false =>
    simp only [IntegerRange.contains, low, signed, Bool.false_eq_true, ↓reduceIte,
      Bool.and_eq_true, decide_eq_true_eq] at contains
    omega

/-- The numeral of a number of the range writes it. -/
theorem writesInteger_numeral {range : IntegerRange} {n : Int} (contains : range.contains n)
    (short : digitCount n ≤ digitLimit) : WritesInteger range.signed (numeral n) n := by
  refine ⟨Nat.toDigits 10 n.natAbs, isDigits_toDigits _, short, ?_⟩
  rw [Nat.ofDigitChars_ten_toDigits]
  unfold numeral
  split
  · rename_i negative
    exact .inr ⟨signed_of_contains_negative contains negative, rfl, by omega⟩
  · exact .inl ⟨rfl, by omega⟩

/-- What the two parts of reading say together: the form of the text and its value. -/
theorem isNumeral_and_value_iff (range : IntegerRange) (text : List Char) (n : Int) :
    range.isNumeral text = true ∧ numeralValue? text = some n ↔
      WritesInteger range.signed text n := by
  constructor
  · rintro ⟨isNumeral, value⟩
    unfold IntegerRange.isNumeral at isNumeral
    unfold numeralValue? at value
    split at isNumeral
    · rename_i digits
      obtain ⟨signed, isDigits⟩ := Bool.and_eq_true_iff.mp isNumeral
      obtain ⟨short, eq⟩ := Option.ite_none_right_eq_some.mp value
      exact ⟨digits, isDigits, short, .inr ⟨signed, rfl, (Option.some.inj eq).symm⟩⟩
    · split at value
      · exact absurd rfl (ne_minus_of_isDigits isNumeral _)
      · obtain ⟨short, eq⟩ := Option.ite_none_right_eq_some.mp value
        exact ⟨text, isNumeral, short, .inl ⟨rfl, (Option.some.inj eq).symm⟩⟩
  · rintro ⟨digits, isDigits, short, ⟨rfl, rfl⟩ | ⟨signed, rfl, rfl⟩⟩
    · -- Digits do not begin with a minus, so both functions read the text as it stands.
      have notMinus := ne_minus_of_isDigits isDigits
      constructor
      · unfold IntegerRange.isNumeral
        split
        · exact absurd rfl (notMinus _)
        · exact isDigits
      · unfold numeralValue?
        split
        · exact absurd rfl (notMinus _)
        · rw [if_pos short]
    · simp only [IntegerRange.isNumeral, numeralValue?, signed, isDigits, short, Bool.and_self,
        ↓reduceIte, and_self]

/-- Reading succeeds on exactly the numerals of the grammar that name an integer of the range. -/
theorem read_eq_ok_iff (range : IntegerRange) (text : List Char) (n : Int) :
    range.read text = .ok n ↔ WritesInteger range.signed text n ∧ range.contains n := by
  rw [← isNumeral_and_value_iff, IntegerRange.read]
  cases range.isNumeral text with
  | false => simp
  | true =>
    cases numeralValue? text with
    | none => simp
    | some value =>
      simp only [Bool.not_true, Bool.false_eq_true, ↓reduceIte, true_and, Option.some.injEq]
      constructor
      · intro read
        split at read
        · cases read
          exact ⟨rfl, by assumption⟩
        · cases read
      · rintro ⟨rfl, contains⟩
        rw [if_pos contains]

end IntegerRange

end TypedHeaders
