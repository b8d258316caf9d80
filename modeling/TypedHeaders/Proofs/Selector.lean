import TypedHeaders.Selector

/-! # Which positions a series takes in

A series with step one is a stretch of adjacent positions within the sequence, from its first bound up
to its last one. Filling positions one by one keeps the number of items, and exchanging a stretch for
others leaves nothing only if there are no others and the stretch is the whole sequence.
-/

namespace TypedHeaders

namespace Selector

/-- The bounds of adjacent positions lie within the sequence. -/
theorem bounds_one (length : Nat) (start stop : Option Int) :
    0 ≤ (bounds length start stop 1).1 ∧ 0 ≤ (bounds length start stop 1).2 ∧
      (bounds length start stop 1).2 ≤ length := by
  have within (bound : Option Int) (default : Int) (inside : 0 ≤ default ∧ default ≤ length) :
      0 ≤ bound.elim default (clamp length false) ∧
        bound.elim default (clamp length false) ≤ length := by
    cases bound with
    | none => exact inside
    | some i =>
      simp only [Option.elim_some, clamp, Bool.false_eq_true, ↓reduceIte]
      omega
  have first := within start 0 ⟨Int.le_refl 0, Int.natCast_nonneg length⟩
  have last := within stop length ⟨Int.natCast_nonneg length, Int.le_refl _⟩
  exact ⟨first.1, last⟩

/-- With step one a series takes in what lies between its bounds. -/
theorem mem_positions_one_iff (length : Nat) (start stop : Option Int) (position : Nat) :
    position ∈ positions length start stop 1 ↔
      (bounds length start stop 1).1 ≤ position ∧ position < (bounds length start stop 1).2 := by
  have inside := bounds_one length start stop
  simp only [positions]
  generalize bounds length start stop 1 = ends at inside
  obtain ⟨first, last⟩ := ends
  have count : count first last 1 = (last - first).toNat := by
    rw [Selector.count, if_neg (by decide)]
    omega
  simp only [count, List.mem_map, List.mem_range, Int.mul_one]
  constructor
  · rintro ⟨i, inRange, rfl⟩
    omega
  · rintro ⟨above, below⟩
    exact ⟨position - first.toNat, by omega, by omega⟩

end Selector

section

variable {α : Type}

theorem length_fillAt (positions : List Nat) (fillers items : List α) :
    (fillAt positions fillers items).length = items.length := by
  unfold fillAt
  generalize positions.zip fillers = entries
  induction entries generalizing items with
  | nil => rfl
  | cons entry entries ih => rw [List.foldl_cons, ih, List.length_set]

theorem mem_of_mem_fillAt {positions : List Nat} {fillers items : List α} {item : α}
    (member : item ∈ fillAt positions fillers items) : item ∈ fillers ∨ item ∈ items := by
  unfold fillAt at member
  have sources : ∀ entry ∈ positions.zip fillers, entry.2 ∈ fillers :=
    fun _ member => (List.of_mem_zip member).2
  generalize positions.zip fillers = entries at member sources
  induction entries generalizing items with
  | nil => exact .inr member
  | cons entry entries ih =>
    obtain ⟨here, rest⟩ := List.forall_mem_cons.mp sources
    rcases ih member rest with filler | set
    · exact .inl filler
    · rcases List.mem_or_eq_of_mem_set set with old | rfl
      · exact .inr old
      · exact .inl here

theorem mem_of_mem_spliceAt {first last : Nat} {others items : List α} {item : α}
    (member : item ∈ spliceAt first last others items) : item ∈ others ∨ item ∈ items := by
  simp only [spliceAt, List.mem_append] at member
  rcases member with (before | other) | behind
  · exact .inr (List.mem_of_mem_take before)
  · exact .inl other
  · exact .inr (List.mem_of_mem_drop behind)

theorem mem_of_mem_itemsOff {positions : List Nat} {items : List α} {item : α}
    (member : item ∈ itemsOff positions items) : item ∈ items := by
  obtain ⟨entry, held, rfl⟩ := List.mem_map.mp member
  exact List.fst_mem_of_mem_zipIdx (List.mem_filter.mp held).1

/-- A splice leaves nothing exactly when it puts in nothing and the range covers every item. -/
theorem spliceAt_eq_nil_iff (first last : Nat) (others items : List α) :
    spliceAt first last others items = [] ↔
      others = [] ∧ (first = 0 ∨ items = []) ∧ items.length ≤ max first last := by
  simp only [spliceAt, List.append_eq_nil_iff, List.take_eq_nil_iff, List.drop_eq_nil_iff]
  constructor
  · rintro ⟨⟨first, others⟩, last⟩
    exact ⟨others, first, last⟩
  · rintro ⟨others, first, last⟩
    exact ⟨⟨first, others⟩, last⟩

end

end TypedHeaders
