import Mathlib.Data.List.Sort
import TypedHeaders.Proofs.Selector

/-! # Which items a selector selects

A number names a position from the start or from the end. A series takes in every position of the
sequence that lies between its bounds and a whole number of steps away from the first one there, so
its positions are those that are left of all positions in order, or in reverse order for a negative
step. What is at the positions, what is left without them and what is filled in there are then
statements about single positions.
-/

namespace TypedHeaders

namespace Selector

/-! ## Single positions -/

/-- The position that a number names, counted from the start or from the end. -/
inductive Names (length : Nat) : Int → Nat → Prop
  | fromStart {position : Nat} (inside : position < length) : Names length position position
  | fromEnd {position : Nat} (inside : position < length) : Names length (position - length) position

/-- The position computed for an index is the one it names. -/
theorem position?_eq_some_of_names {length position : Nat} {i : Int}
    (names : Names length i position) : position? length i = some position := by
  cases names with
  | fromStart inside =>
    have inRange : (0 : Int) ≤ position ∧ (position : Int) < length := by omega
    simp only [position?, Int.not_ofNat_neg, ↓reduceIte, inRange, and_self, Int.toNat_natCast]
  | fromEnd inside =>
    have negative : (position : Int) - length < 0 := by omega
    have inRange : (0 : Int) ≤ position ∧ (position : Int) < length := by omega
    simp only [position?, negative, ↓reduceIte, Int.sub_add_cancel, inRange, and_self,
      Int.toNat_natCast]

/-- An index outside the list names no position. -/
theorem position?_eq_none {length : Nat} {i : Int} (outside : i < -length ∨ length ≤ i) :
    position? length i = none := by
  simp only [position?]
  split <;> split <;> first | rfl | omega

theorem Names.inside {length position : Nat} {i : Int} (names : Names length i position) :
    position < length := by cases names <;> assumption

/-- A whole number selects one position, unless it is too large to count any. -/
theorem ofValue_of_whole {value : Value} {i : Int} (whole : value.whole? = some i)
    (kind : Sequence) :
    ofValue kind value =
      if i < -countLimit ∨ countLimit ≤ i then .error (.outOfBounds .tooLarge)
      else .ok (.index i) := by
  cases value <;> cases whole <;> rfl

/-! ## Series of positions -/

/-- A bound of a series as a value: a whole number, or nothing. -/
inductive IsBound : Value → Option Int → Prop
  | missing : IsBound .null none
  | whole {value : Value} {i : Int} (whole : value.whole? = some i) : IsBound value (some i)

theorem IsBound.bound_eq {value : Value} {i : Option Int} (isBound : IsBound value i) :
    bound value = .ok i := by
  cases isBound with
  | missing => rfl
  | whole whole => cases value <;> cases whole <;> rfl

/-- A slice with a step other than zero selects the series its bounds spell. -/
theorem ofValue_slice {start stop step : Value} {start' stop' step' : Option Int}
    (isStart : IsBound start start') (isStop : IsBound stop stop') (isStep : IsBound step step')
    (nonzero : step'.getD 1 ≠ 0) (kind : Sequence) :
    ofValue kind (.slice start stop step) = .ok (.series start' stop' (step'.getD 1)) := by
  simp only [ofValue, isStart.bound_eq, isStop.bound_eq, isStep.bound_eq, bind, Except.bind,
    nonzero, ↓reduceIte]
  rfl

/-- A slice with step zero is refused, whatever its bounds. -/
theorem ofValue_slice_of_zero {step : Value} (isStep : IsBound step (some 0))
    (start stop : Value) (kind : Sequence) :
    ofValue kind (.slice start stop step) = .error (.badValue .zeroStep) := by
  simp only [ofValue, isStep.bound_eq, bind, Except.bind]
  rfl

/-- The place that a bound stands for, where negative numbers count from the end and a missing bound
has a place of its own. -/
def place (length : Nat) (missing : Int) : Option Int → Int
  | none => missing
  | some i => if i < 0 then i + length else i

/-- Whether a series takes in a position: it lies from the first bound on and before the last one,
a whole number of steps away from the first position that does. -/
def TakesIn (length : Nat) (start stop : Option Int) (step : Int) (position : Nat) : Prop :=
  if 0 < step then
    let first := place length 0 start
    first ≤ position ∧ position < place length length stop ∧ step ∣ position - max 0 first
  else
    let first := place length (length - 1) start
    position ≤ first ∧ place length (-1) stop < position ∧ step ∣ position - min (length - 1 : Int) first

instance (length : Nat) (start stop : Option Int) (step : Int) :
    DecidablePred (TakesIn length start stop step) := by
  intro position
  unfold TakesIn
  infer_instance

/-- The positions of a sequence that a series takes in, in the direction of its step. -/
def chosen (length : Nat) (start stop : Option Int) (step : Int) : List Nat :=
  (if 0 < step then List.range length else (List.range length).reverse).filter
    fun position => TakesIn length start stop step position

/-- The positions a series goes through are those that satisfy its declarative reading. -/
theorem mem_chosen_iff (length : Nat) (start stop : Option Int) (step : Int) (position : Nat) :
    position ∈ chosen length start stop step ↔
      position < length ∧ TakesIn length start stop step position := by
  unfold chosen
  split <;> simp

/-- Steps are counted as long as they stay before the last bound. -/
theorem lt_count_iff_of_pos {step : Int} (forwards : 0 < step) (first last : Int) (i : Nat) :
    i < count first last step ↔ first + i * step < last := by
  have steps : (i : Int) ≤ (last - first - 1) / step ↔ i * step ≤ last - first - 1 :=
    Int.le_ediv_iff_mul_le forwards
  rw [count, if_neg (by omega)]
  omega

private theorem lt_count_iff_of_neg {step : Int} (backwards : step < 0) (first last : Int)
    (i : Nat) :
    i < count first last step ↔ last < first + i * step := by
  have steps : (i : Int) ≤ (first - last - 1) / -step ↔ i * -step ≤ first - last - 1 :=
    Int.le_ediv_iff_mul_le (by omega)
  rw [Int.mul_neg] at steps
  rw [count, if_pos backwards]
  omega

private theorem bounds_of_pos {step : Int} (forwards : 0 < step) (length : Nat)
    (start stop : Option Int) :
    bounds length start stop step =
      (max 0 (min (length : Int) (place length 0 start)),
        max 0 (min (length : Int) (place length length stop))) := by
  have notBackwards : ¬ step < 0 := by omega
  simp only [bounds, notBackwards, decide_false, Bool.false_eq_true, ↓reduceIte, Prod.mk.injEq]
  constructor
  · cases start with
    | none => simp [place]
    | some i => rfl
  · cases stop with
    | none => simp [place]
    | some i => rfl

private theorem bounds_of_neg {step : Int} (backwards : step < 0) (length : Nat)
    (start stop : Option Int) :
    bounds length start stop step =
      (max (-1) (min (length - 1 : Int) (place length (length - 1) start)),
        max (-1) (min (length - 1 : Int) (place length (-1) stop))) := by
  simp only [bounds, backwards, decide_true, ↓reduceIte, Prod.mk.injEq]
  constructor
  · cases start with
    | none =>
      simp only [Option.elim_none, place]
      omega
    | some i => rfl
  · cases stop with
    | none =>
      simp only [Option.elim_none, place]
      omega
    | some i => rfl

/-- A distance in steps is walked in some number of steps. -/
private theorem exists_steps {step distance : Int} (nonzero : step ≠ 0) (whole : step ∣ distance)
    (sameSign : 0 ≤ distance * step) : ∃ i : Nat, distance = i * step := by
  obtain ⟨steps, rfl⟩ := whole
  have ahead : 0 ≤ steps := by
    by_contra behind
    have square : 0 < step * step := by
      rcases Int.lt_or_lt_of_ne nonzero with negative | positive
      · exact Int.mul_pos_of_neg_of_neg negative negative
      · exact Int.mul_pos positive positive
    have below : step * step * steps < 0 := Int.mul_neg_of_pos_of_neg square (by omega)
    rw [Int.mul_right_comm] at below
    omega
  exact ⟨steps.toNat, by rw [Int.toNat_of_nonneg ahead, Int.mul_comm]⟩

private theorem mem_positions_of_pos {step : Int} (forwards : 0 < step) (length : Nat)
    (start stop : Option Int) (position : Nat) :
    position ∈ positions length start stop step ↔
      position < length ∧ TakesIn length start stop step position := by
  simp only [positions, bounds_of_pos forwards, List.mem_map, List.mem_range,
    lt_count_iff_of_pos forwards, TakesIn, if_pos forwards]
  generalize place length 0 start = first
  generalize place length length stop = last
  constructor
  · rintro ⟨i, before, rfl⟩
    have ahead : 0 ≤ i * step := Int.mul_nonneg (Int.natCast_nonneg i) (Int.le_of_lt forwards)
    refine ⟨by omega, by omega, by omega, i, ?_⟩
    rw [Int.mul_comm step]
    omega
  · rintro ⟨inside, after, before, whole⟩
    have ahead : 0 ≤ (position - max 0 first) * step :=
      Int.mul_nonneg (by omega) (Int.le_of_lt forwards)
    obtain ⟨i, distance⟩ := exists_steps (by omega) whole ahead
    exact ⟨i, by omega, by omega⟩

private theorem mem_positions_of_neg {step : Int} (backwards : step < 0) (length : Nat)
    (start stop : Option Int) (position : Nat) :
    position ∈ positions length start stop step ↔
      position < length ∧ TakesIn length start stop step position := by
  have notForwards : ¬ 0 < step := by omega
  simp only [positions, bounds_of_neg backwards, List.mem_map, List.mem_range,
    lt_count_iff_of_neg backwards, TakesIn, if_neg notForwards]
  generalize place length (length - 1) start = first
  generalize place length (-1) stop = last
  constructor
  · rintro ⟨i, before, rfl⟩
    have behind : i * step ≤ 0 :=
      Int.mul_nonpos_of_nonneg_of_nonpos (Int.natCast_nonneg i) (Int.le_of_lt backwards)
    refine ⟨by omega, by omega, by omega, i, ?_⟩
    rw [Int.mul_comm step]
    omega
  · rintro ⟨inside, after, before, whole⟩
    have behind : 0 ≤ (position - min (length - 1 : Int) first) * step :=
      Int.mul_nonneg_of_nonpos_of_nonpos (by omega) (Int.le_of_lt backwards)
    obtain ⟨i, distance⟩ := exists_steps (by omega) whole behind
    exact ⟨i, by omega, by omega⟩

private theorem pairwise_positions_of_pos {step : Int} (forwards : 0 < step) (length : Nat)
    (start stop : Option Int) : (positions length start stop step).Pairwise (· < ·) := by
  simp only [positions, bounds_of_pos forwards, List.pairwise_map]
  apply List.pairwise_lt_range.imp
  intro i j earlier
  have further : i * step < j * step := Int.mul_lt_mul_of_pos_right (by omega) forwards
  have ahead : 0 ≤ i * step := Int.mul_nonneg (Int.natCast_nonneg i) (Int.le_of_lt forwards)
  omega

private theorem pairwise_positions_of_neg {step : Int} (backwards : step < 0) (length : Nat)
    (start stop : Option Int) : (positions length start stop step).Pairwise (· > ·) := by
  simp only [positions, bounds_of_neg backwards, List.pairwise_map]
  apply List.pairwise_lt_range.imp_of_mem
  intro i j _ inRange earlier
  have further : j * step < i * step := Int.mul_lt_mul_of_neg_right (by omega) backwards
  -- The later position is still before the last bound, and so it is not cut off at zero.
  have before := (lt_count_iff_of_neg backwards ..).mp (List.mem_range.mp inRange)
  omega

/-- The positions of a series are those that it takes in, in its direction. -/
theorem positions_eq_chosen {step : Int} (nonzero : step ≠ 0) (length : Nat)
    (start stop : Option Int) :
    positions length start stop step = chosen length start stop step := by
  rcases Int.lt_or_lt_of_ne nonzero with backwards | forwards
  · apply (pairwise_positions_of_neg backwards length start stop).eq_of_mem_iff
    · rw [chosen, if_neg (by omega)]
      exact (List.pairwise_reverse.mpr List.pairwise_lt_range).filter _
    · intro position
      rw [mem_positions_of_neg backwards, mem_chosen_iff]
  · apply (pairwise_positions_of_pos forwards length start stop).eq_of_mem_iff
    · rw [chosen, if_pos forwards]
      exact List.pairwise_lt_range.filter _
    · intro position
      rw [mem_positions_of_pos forwards, mem_chosen_iff]

/-- A series meets no position twice. -/
theorem nodup_chosen (length : Nat) (start stop : Option Int) (step : Int) :
    (chosen length start stop step).Nodup := by
  unfold chosen
  split
  · exact List.nodup_range.filter _
  · exact (List.nodup_reverse.mpr List.nodup_range).filter _

end Selector

/-! ## Items at positions -/

section

variable {α : Type}

/-- What is at some positions of a sequence, item by item. -/
theorem itemsAt_map_some {positions : List Nat} {items : List α}
    (inside : ∀ position ∈ positions, position < items.length) :
    (itemsAt positions items).map some = positions.map (items[·]?) := by
  induction positions with
  | nil => rfl
  | cons position positions ih =>
    obtain ⟨here, rest⟩ := List.forall_mem_cons.mp inside
    have found : items[position]? = some items[position] := List.getElem?_eq_getElem here
    simp only [itemsAt, List.filterMap_cons, found, List.map_cons]
    exact congrArg _ (ih rest)

/-- What is left without some positions: the items at all others, in their order. -/
theorem itemsOff_map_some (positions : List Nat) (items : List α) :
    (itemsOff positions items).map some =
      ((List.range items.length).filter (· ∉ positions)).map (items[·]?) := by
  have indices : List.range items.length = items.zipIdx.map Prod.snd := by
    rw [List.zipIdx_map_snd, List.range_eq_range']
  rw [indices, List.filter_map, List.map_map, itemsOff, List.map_map]
  have keeps : (fun entry : α × Nat => !positions.contains entry.2) =
      (fun position => decide (position ∉ positions)) ∘ Prod.snd := by
    funext entry
    simp
  rw [keeps]
  apply List.map_congr_left
  intro entry member
  exact (List.mem_zipIdx_iff_getElem?.mp (List.mem_filter.mp member).1).symm

private theorem eraseIdx_eq_filter (position first : Nat) (items : List α) :
    items.eraseIdx position =
      ((items.zipIdx first).filter fun entry => !(entry.2 == first + position)).map Prod.fst := by
  induction items generalizing position first with
  | nil => rfl
  | cons item items ih =>
    rw [List.zipIdx_cons]
    cases position with
    | zero =>
      have later : ((items.zipIdx (first + 1)).filter fun entry => !(entry.2 == first + 0)) =
          items.zipIdx (first + 1) := by
        apply List.filter_eq_self.mpr
        intro entry member
        have := List.le_snd_of_mem_zipIdx member
        simp only [Nat.add_zero, Bool.not_eq_true', beq_eq_false_iff_ne]
        omega
      simp only [List.eraseIdx_cons_zero, List.filter_cons, Nat.add_zero, beq_self_eq_true,
        Bool.not_true, Bool.false_eq_true, ↓reduceIte] at later ⊢
      rw [later, List.zipIdx_map_fst]
    | succ position =>
      have here : (first == first + (position + 1)) = false := by
        simp
      rw [List.eraseIdx_cons_succ, ih position (first + 1)]
      simp only [List.filter_cons, here, Bool.not_false, ↓reduceIte, List.map_cons]
      rw [Nat.add_right_comm first 1 position, Nat.add_assoc]

/-- To leave out one position is to leave out a series of just this one. -/
theorem eraseIdx_eq_itemsOff (position : Nat) (items : List α) :
    items.eraseIdx position = itemsOff [position] items := by
  rw [eraseIdx_eq_filter position 0, itemsOff]
  simp only [List.contains_cons, List.contains_nil, Bool.or_false, Nat.zero_add]

theorem getElem?_fillAt_of_not_mem {position : Nat} {positions : List Nat}
    (apart : position ∉ positions) (fillers items : List α) :
    (fillAt positions fillers items)[position]? = items[position]? := by
  induction positions generalizing fillers items with
  | nil => rfl
  | cons first positions ih =>
    obtain ⟨ne, apart⟩ := List.ne_and_not_mem_of_not_mem_cons apart
    cases fillers with
    | nil => rfl
    | cons filler fillers =>
      have set : (items.set first filler)[position]? = items[position]? :=
        List.getElem?_set_ne (Ne.symm ne)
      exact (ih apart fillers _).trans set

/-- What is filled in at some positions is found there. -/
theorem map_getElem?_fillAt {positions : List Nat} {fillers items : List α}
    (distinct : positions.Nodup) (inside : ∀ position ∈ positions, position < items.length)
    (fitting : fillers.length = positions.length) :
    positions.map ((fillAt positions fillers items)[·]?) = fillers.map some := by
  induction positions generalizing fillers items with
  | nil =>
    cases fillers with
    | nil => rfl
    | cons => cases fitting
  | cons position positions ih =>
    cases fillers with
    | nil => cases fitting
    | cons filler fillers =>
      obtain ⟨apart, distinct⟩ := List.nodup_cons.mp distinct
      obtain ⟨here, rest⟩ := List.forall_mem_cons.mp inside
      have filled : (fillAt (position :: positions) (filler :: fillers) items)[position]? =
          some filler := by
        have kept := getElem?_fillAt_of_not_mem apart fillers (items.set position filler)
        exact kept.trans (List.getElem?_set_self here)
      have rest' : ∀ position' ∈ positions, position' < (items.set position filler).length := by
        simpa using rest
      have others := ih distinct rest' (Nat.succ.inj fitting)
      rw [List.map_cons, List.map_cons, filled]
      exact congrArg _ others

end

end TypedHeaders
