import TypedHeaders.Proofs.Text.Case

/-! # What becomes ASCII by a change of case

Few characters outside of ASCII have a form in ASCII. Of all letters in another case only the Kelvin
sign becomes an ASCII letter when it is made small, and ten small letters become ASCII letters when
they begin a capitalized word. So a word is ASCII once it is capitalized if it was ASCII before,
save for these letters.
-/

namespace TypedHeaders.Text

/-- The letters outside of ASCII that begin a capitalized word in ASCII: sharp s, the small i
without a dot, the long s, and the ligatures of f with f, i and l and of s with t. -/
def titledInAscii : List Char := ['ß', 'ı', 'ſ', 'ﬀ', 'ﬁ', 'ﬂ', 'ﬃ', 'ﬄ', 'ﬅ', 'ﬆ']

/-- The letter outside of ASCII that is a letter of ASCII in lower case. -/
def kelvinSign : Char := Char.ofNat 0x212A

/-- The run moves no character to one of ASCII. -/
def CaseRun.LeadsAway (run : CaseRun) : Prop :=
  128 ≤ run.first + run.shift ∧ run.last + run.shift < 0xD800 ∨
    0xDFFF < run.first + run.shift ∧ run.last + run.shift < 0x110000

instance (run : CaseRun) : Decidable run.LeadsAway :=
  inferInstanceAs (Decidable (_ ∨ _))

theorem CaseRun.LeadsAway.foreign {run : CaseRun} (away : run.LeadsAway) {code : Nat}
    (first : run.first ≤ code) (last : code ≤ run.last) :
    128 ≤ (Char.ofNat (Int.toNat (code + run.shift))).toNat := by
  unfold CaseRun.LeadsAway at away
  have valid : (Int.toNat (code + run.shift)).isValidChar := by
    unfold Nat.isValidChar
    omega
  rw [Char.ofNat, dif_pos valid]
  change 128 ≤ Int.toNat (code + run.shift)
  omega

/-- The tables bring none but these characters from outside into ASCII. -/
structure BringsInOnly (runs : List CaseRun) (expansions : List (Nat × List Nat))
    (letters : List Char) : Prop where
  runs : ∀ run ∈ runs, run.last < 128 ∨ run.LeadsAway ∨
    run.first = run.last ∧ Char.ofNat run.first ∈ letters
  expansions : ∀ entry ∈ expansions,
    Char.ofNat entry.1 ∈ letters ∨ ∃ code ∈ entry.2, 128 ≤ (Char.ofNat code).toNat

private theorem BringsInOnly.mem {runs : List CaseRun} {expansions : List (Nat × List Nat)}
    {letters : List Char} (only : BringsInOnly runs expansions letters) {c : Char}
    (foreign : 128 ≤ c.toNat) (ascii : IsAscii (mapped runs expansions c)) : c ∈ letters := by
  unfold mapped at ascii
  split at ascii
  · rename_i moved shifted
    obtain ⟨run, member, first, last, rfl⟩ := exists_run_of_shifted? shifted
    have here := ascii _ (List.mem_singleton.mpr rfl)
    rcases only.runs run member with small | away | ⟨single, letter⟩
    · omega
    · have there := away.foreign first last
      omega
    · have same : run.first = c.toNat := by omega
      rwa [same, Char.ofNat_toNat] at letter
  · cases expanded : expanded? c.toNat expansions with
    | none =>
      rw [expanded, Option.getD_none, isAscii_cons] at ascii
      omega
    | some others =>
      obtain ⟨codes, found, rfl⟩ := Option.map_eq_some_iff.mp expanded
      obtain ⟨before, after, split, -⟩ := List.lookup_eq_some_iff.mp found
      have member : (c.toNat, codes) ∈ expansions := by simp [split]
      rcases only.expansions _ member with letter | ⟨code, held, far⟩
      · rwa [Char.ofNat_toNat] at letter
      · rw [expanded, Option.getD_some] at ascii
        have near := ascii _ (List.mem_map_of_mem held)
        omega

private theorem title_bringsInOnly : BringsInOnly titleRuns titleExpansions titledInAscii where
  runs := by decide +kernel
  expansions := by decide +kernel

private theorem lower_bringsInOnly : BringsInOnly lowerRuns lowerExpansions [kelvinSign] where
  runs := by decide +kernel
  expansions := by decide +kernel

private theorem isAscii_titles : IsAscii (titledInAscii.flatMap title) := by decide +kernel

/-- The characters titled into ASCII are the ASCII ones and those of a short list. -/
theorem isAscii_title_iff (c : Char) : IsAscii (title c) ↔ c.toNat < 128 ∨ c ∈ titledInAscii := by
  constructor
  · intro ascii
    by_cases here : c.toNat < 128
    · exact .inl here
    · exact .inr (title_bringsInOnly.mem (Nat.le_of_not_lt here) ascii)
  · rintro (here | letter)
    · obtain ⟨-, title, -, lower, small⟩ := lower_title here
      apply isAscii_of_map_toLower
      simpa [title, lower] using small
    · exact fun c' member => isAscii_titles c' (List.mem_flatMap_of_mem letter member)

private theorem isAscii_mapped_lower_iff (c : Char) :
    IsAscii (mapped lowerRuns lowerExpansions c) ↔ c.toNat < 128 ∨ c = kelvinSign := by
  constructor
  · intro ascii
    by_cases here : c.toNat < 128
    · exact .inl here
    · exact .inr (List.mem_singleton.mp (lower_bringsInOnly.mem (Nat.le_of_not_lt here) ascii))
  · rintro (here | rfl)
    · obtain ⟨lower, -, -, -, small⟩ := lower_title here
      simpa [lower] using small
    · decide +kernel

/-- Lowering enters ASCII from outside it at the Kelvin sign only. -/
theorem isAscii_lowerAfter_iff (before text : List Char) :
    IsAscii (lowerAfter before text) ↔ ∀ c ∈ text, c.toNat < 128 ∨ c = kelvinSign := by
  induction text generalizing before with
  | nil => simp [lowerAfter]
  | cons c text ih =>
    have first : IsAscii (if c = 'Σ' then [smallSigma before text]
        else mapped lowerRuns lowerExpansions c) ↔ c.toNat < 128 ∨ c = kelvinSign := by
      split
      · rename_i sigma
        have foreign : ¬ IsAscii [smallSigma before text] := by
          unfold smallSigma
          split <;> decide
        exact iff_of_false foreign (sigma ▸ by decide)
      · exact isAscii_mapped_lower_iff c
    rw [lowerAfter, isAscii_append, ih, List.forall_mem_cons, first]

/-- The word is ASCII once it is capitalized, by what its characters are. -/
def EntersAscii : List Char → Prop
  | [] => True
  | c :: rest => (c.toNat < 128 ∨ c ∈ titledInAscii) ∧ ∀ c' ∈ rest, c'.toNat < 128 ∨ c' = kelvinSign

instance : DecidablePred EntersAscii
  | [] => isTrue trivial
  | _ :: rest => @instDecidableAnd _ _ _
    (List.decidableBAll (fun c : Char => c.toNat < 128 ∨ c = kelvinSign) rest)

/-- A word is capitalised into ASCII when each of its characters enters ASCII in its place. -/
theorem isAscii_capitalize_iff (word : List Char) :
    IsAscii (capitalize word) ↔ EntersAscii word := by
  cases word with
  | nil => simp [capitalize, EntersAscii]
  | cons c rest =>
    rw [capitalize, isAscii_append, isAscii_title_iff, isAscii_lowerAfter_iff, EntersAscii]

end TypedHeaders.Text
