import TypedHeaders.Proofs.Text.Ascii
import TypedHeaders.Text.Case

/-! # Letter case of ASCII text

Of ASCII characters the Unicode tables move only the letters, and each to one other letter, so ASCII
text is brought into lower case or capitalized one character at a time. What has been capitalized is
found again in lower case.
-/

namespace TypedHeaders.Text

def IsAscii (text : List Char) : Prop := ∀ c ∈ text, c.toNat < 128

instance (text : List Char) : Decidable (IsAscii text) :=
  List.decidableBAll (fun c : Char => c.toNat < 128) text

@[simp]
theorem isAscii_nil : IsAscii [] := by simp [IsAscii]

@[simp]
theorem isAscii_cons (c : Char) (text : List Char) :
    IsAscii (c :: text) ↔ c.toNat < 128 ∧ IsAscii text := by
  simp only [IsAscii, List.forall_mem_cons]

@[simp]
theorem isAscii_append (text text' : List Char) :
    IsAscii (text ++ text') ↔ IsAscii text ∧ IsAscii text' := by
  simp only [IsAscii, List.forall_mem_append]

private theorem lower_title_table : ∀ n < 128,
    mapped lowerRuns lowerExpansions (Char.ofNat n) = [(Char.ofNat n).toLower] ∧
      title (Char.ofNat n) = [(Char.ofNat n).toUpper] ∧
      (Char.ofNat n).toLower.toLower = (Char.ofNat n).toLower ∧
      (Char.ofNat n).toUpper.toLower = (Char.ofNat n).toLower ∧
      (Char.ofNat n).toLower.toNat < 128 := by
  decide +kernel

/-- On ASCII the case tables agree with the letters of the alphabet. -/
theorem lower_title {c : Char} (ascii : c.toNat < 128) :
    mapped lowerRuns lowerExpansions c = [c.toLower] ∧ title c = [c.toUpper] ∧
      c.toLower.toLower = c.toLower ∧ c.toUpper.toLower = c.toLower ∧ c.toLower.toNat < 128 := by
  have entry := lower_title_table c.toNat ascii
  rwa [Char.ofNat_toNat] at entry

theorem isAscii_map_toLower {text : List Char} (ascii : IsAscii text) :
    IsAscii (text.map Char.toLower) :=
  List.forall_mem_map.mpr fun c member => (lower_title (ascii c member)).2.2.2.2

theorem map_toLower_map_toLower {text : List Char} (ascii : IsAscii text) :
    (text.map Char.toLower).map Char.toLower = text.map Char.toLower := by
  rw [List.map_map]
  exact List.map_congr_left fun c member => (lower_title (ascii c member)).2.2.1

private theorem lowerAfter_of_isAscii {text : List Char} (ascii : IsAscii text)
    (before : List Char) :
    lowerAfter before text = text.map Char.toLower := by
  induction text generalizing before with
  | nil => rfl
  | cons c text ih =>
    obtain ⟨here, rest⟩ := (isAscii_cons c text).mp ascii
    have plain : c ≠ 'Σ' := by
      rintro rfl
      exact absurd here (by decide)
    simp only [lowerAfter, plain, ↓reduceIte, (lower_title here).1, ih rest, List.map_cons,
      List.cons_append, List.nil_append]

/-- Lowering an ASCII text lowers each of its letters. -/
theorem lower_of_isAscii {text : List Char} (ascii : IsAscii text) :
    lower text = text.map Char.toLower := lowerAfter_of_isAscii ascii []

theorem isAscii_of_map_toLower {text : List Char} (ascii : IsAscii (text.map Char.toLower)) :
    IsAscii text := by
  intro c member
  have lower := List.forall_mem_map.mp ascii c member
  rw [toNat_toLower] at lower
  split at lower <;> omega

/-- Capitalising an ASCII word changes nothing but the case of its letters. -/
theorem map_toLower_capitalize {word : List Char} (ascii : IsAscii word) :
    (capitalize word).map Char.toLower = word.map Char.toLower := by
  cases word with
  | nil => rfl
  | cons c rest =>
    obtain ⟨here, rest'⟩ := (isAscii_cons c rest).mp ascii
    obtain ⟨-, title, -, lower, -⟩ := lower_title here
    rw [capitalize, title, lowerAfter_of_isAscii rest', List.singleton_append, List.map_cons,
      List.map_cons, lower, map_toLower_map_toLower rest']

/-! ## No capital letters are left -/

def HasNoCapital (text : List Char) : Prop := ∀ c ∈ text, ¬ (65 ≤ c.toNat ∧ c.toNat ≤ 90)

instance (text : List Char) : Decidable (HasNoCapital text) :=
  List.decidableBAll (fun c : Char => ¬ (65 ≤ c.toNat ∧ c.toNat ≤ 90)) text

/-- A character that a table moves lies in one of its runs and moves by the shift of that run. -/
theorem exists_run_of_shifted? {code : Nat} {moved : Char} {runs : List CaseRun}
    (shifted : shifted? code runs = some moved) :
    ∃ run ∈ runs, run.first ≤ code ∧ code ≤ run.last ∧
      moved = Char.ofNat (Int.toNat (code + run.shift)) := by
  induction runs with
  | nil => cases shifted
  | cons run runs ih =>
    rw [shifted?] at shifted
    split at shifted
    · cases shifted
    · split at shifted
      · rename_i reached here
        cases shifted
        exact ⟨run, List.mem_cons_self .., Nat.le_of_not_lt reached, here.1, rfl⟩
      · obtain ⟨run, member, found⟩ := ih shifted
        exact ⟨run, List.mem_cons_of_mem _ member, found⟩

/-- No run of the table moves anything to a capital ASCII letter. -/
private theorem lowerRuns_apart : ∀ run ∈ lowerRuns,
    run.last + run.shift < 65 ∨ 90 < run.first + run.shift := by decide +kernel

private theorem lowerExpansions_apart : ∀ entry ∈ lowerExpansions, ∀ code ∈ entry.2,
    ¬ (65 ≤ (Char.ofNat code).toNat ∧ (Char.ofNat code).toNat ≤ 90) := by decide +kernel

private theorem capital_moves : ∀ code < 91, 65 ≤ code → shifted? code lowerRuns ≠ none := by
  decide +kernel

private theorem toNat_ofNat_apart {code : Nat} (apart : code < 65 ∨ 90 < code) :
    ¬ (65 ≤ (Char.ofNat code).toNat ∧ (Char.ofNat code).toNat ≤ 90) := by
  unfold Char.ofNat
  by_cases valid : code.isValidChar
  · rw [dif_pos valid]
    change ¬ (65 ≤ code ∧ code ≤ 90)
    omega
  · rw [dif_neg valid]
    decide

private theorem mapped_hasNoCapital (c : Char) :
    HasNoCapital (mapped lowerRuns lowerExpansions c) := by
  unfold mapped
  split
  · rename_i moved shifted
    obtain ⟨run, member, first, last, rfl⟩ := exists_run_of_shifted? shifted
    have apart := lowerRuns_apart run member
    intro c' member'
    rw [List.mem_singleton.mp member']
    exact toNat_ofNat_apart (by omega)
  · rename_i still
    have small : ¬ (65 ≤ c.toNat ∧ c.toNat ≤ 90) := by
      intro capital
      exact capital_moves c.toNat (by omega) capital.1 still
    cases expanded : expanded? c.toNat lowerExpansions with
    | none => simpa [HasNoCapital] using small
    | some others =>
      obtain ⟨codes, found, rfl⟩ := Option.map_eq_some_iff.mp expanded
      obtain ⟨before, after, split, -⟩ := List.lookup_eq_some_iff.mp found
      have member : (c.toNat, codes) ∈ lowerExpansions := by simp [split]
      exact List.forall_mem_map.mpr (lowerExpansions_apart _ member)

private theorem lowerAfter_hasNoCapital (before text : List Char) :
    HasNoCapital (lowerAfter before text) := by
  induction text generalizing before with
  | nil => exact List.forall_mem_nil _
  | cons c text ih =>
    have first : HasNoCapital (if c = 'Σ' then [smallSigma before text]
        else mapped lowerRuns lowerExpansions c) := by
      split
      · unfold smallSigma
        split <;> decide
      · exact mapped_hasNoCapital c
    exact List.forall_mem_append.mpr ⟨first, ih (c :: before)⟩

/-- Nothing that was lowered holds an ASCII capital. -/
theorem lower_hasNoCapital (text : List Char) : HasNoCapital (lower text) :=
  lowerAfter_hasNoCapital [] text

theorem map_toLower_of_hasNoCapital {text : List Char} (small : HasNoCapital text) :
    text.map Char.toLower = text := by
  have kept : ∀ c ∈ text, c.toLower = c := by
    intro c member
    rw [← Char.ofNat_toNat c.toLower, toNat_toLower, if_neg (small c member), Char.ofNat_toNat]
  rw [List.map_congr_left kept, List.map_id']

end TypedHeaders.Text
