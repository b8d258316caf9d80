import TypedHeaders.Proofs.Container.Lists
import TypedHeaders.Proofs.Container.Moves

/-! # Names that are present

A name that is present has a field, as long as no series of positions that takes in all fields of a
name is filled with nothing. Then what reads the last field of a name finds one, and the first
operation of that sort leaves a name that has none.
-/

namespace TypedHeaders.Container

variable {α : Type}

def Filled (fields : Fields) : Prop := ∀ entry ∈ fields.entries, entry.2 ≠ []

namespace Filled

theorem empty : Filled .empty := fun _ member => (List.not_mem_nil member).elim

/-- No name of a filled container has an empty list. -/
theorem find?_ne {fields : Fields} (filled : Filled fields) (key : Value) :
    fields.find? key ≠ some [] := by
  intro found
  obtain ⟨entry, member, -, nothing⟩ := MultiMap.exists_mem_of_find? found
  exact filled entry member nothing

/-- A name is there exactly if it has a field. -/
theorem find?_eq {container : Container} (filled : Filled container.fields) (key : Value) :
    container.fields.find? key = Effect.settled (container.fieldsOf key) := by
  rw [fieldsOf]
  cases found : container.fields.find? key with
  | none => rfl
  | some fields =>
    have some : fields ≠ [] := fun nothing => filled.find?_ne key (nothing ▸ found)
    rw [Option.getD_some, Effect.settled, if_neg some]

theorem assign {fields : Fields} (filled : Filled fields) (key : Value)
    {values : Option (List Value)} (notNil : values ≠ some []) :
    Filled (fields.assign key values) := by
  intro entry member
  rcases MultiMap.mem_entries_assign member with old | ⟨rfl, -⟩
  · exact filled entry old
  · exact fun nothing => notNil (congrArg some nothing)

/-- A single change keeps a filled container filled. -/
theorem change {container after : Container} (filled : Filled container.fields)
    (change : Change container after) : Filled after.fields := by
  cases change with
  | none => exact filled
  | assign slot fields fills => exact filled.assign _ fun nothing => filled.find?_ne _ (fills nothing)
  | clear => exact .empty
  | attach => exact filled

theorem changes {container after : Container} (filled : Filled container.fields)
    (changes : Changes container after) : Filled after.fields := by
  induction changes with
  | refl => exact filled
  | tail _ change ih => exact ih.change change

end Filled

private theorem not_filled_assign_nil (fields : Fields) (key : Value) :
    ¬ Filled (fields.assign key (some [])) := by
  intro filled
  obtain ⟨entry, member, nothing⟩ := MultiMap.exists_mem_put key [] fields
  exact filled entry member nothing

/-- An operation keeps a field for each name that is present, unless it fills all positions of a name
with nothing. -/
theorem Filled.step_iff {container : Container} (filled : Filled container.fields)
    (operation : Operation) :
    Filled (perform operation container).2.fields ↔ ∀ key, ¬ operation.Vacates container key := by
  constructor
  · intro filled key vacates
    rw [perform_of_vacates vacates] at filled
    exact not_filled_assign_nil _ _ filled
  · intro vacatesNone
    rcases perform_changes operation container with changes | ⟨key, vacates⟩
    · exact filled.changes changes
    · exact (vacatesNone key vacates).elim

/-! ## Reading last fields -/

/-- A list that is not empty has a last field. -/
theorem lastOf_of_ne_nil {fields : List Value} (filled : fields ≠ []) :
    lastOf fields = .ok (fields.getLast filled) := by
  rw [lastOf, List.getLast?_eq_some_getLast filled]

/-- That an action does not fail for a position that is not there. -/
def InBounds (action : Action α) (container : Container) : Prop :=
  ∀ cause, (action container).1 ≠ .error (.outOfBounds cause)

namespace InBounds

variable {β : Type} {container : Container}

theorem pure (result : α) (container : Container) :
    InBounds (pure result : Action α) container := by
  intro cause failed
  cases failed

/-- A sequence stays in bounds when both of its parts do. -/
theorem bind {action : Action α} {next : α → Action β} (first : InBounds action container)
    (second : ∀ result, InBounds (next result) (action container).2) :
    InBounds (action >>= next) container := by
  intro cause failed
  rw [bind_apply] at failed
  rcases outcome : action container with ⟨error | result, after⟩ <;> rw [outcome] at failed
  · cases failed
    exact first cause (by rw [outcome])
  · have inBounds := second result
    rw [outcome] at inBounds
    exact inBounds cause failed

theorem map {action : Action α} (inBounds : InBounds action container) (onOk : α → β) :
    InBounds (onOk <$> action) container := by
  rw [map_eq_pure_bind]
  exact inBounds.bind fun _ => .pure _ _

theorem mapM {step : α → Action β} (reads : ∀ item, Reads (step item))
    (inBounds : ∀ item, InBounds (step item) container) (items : List α) :
    InBounds (items.mapM step) container := by
  induction items with
  | nil => exact .pure _ _
  | cons item items ih =>
    rw [List.mapM_cons]
    refine (inBounds item).bind fun _ => ?_
    rw [reads item container]
    exact ih.bind fun _ => .pure _ _

/-- A step on one name is in bounds if it is so wherever the name is missing or has a field. -/
theorem run {effect : Effect α} (filled : Filled container.fields) (name : Value)
    (inBounds : ∀ key found, found ≠ some [] →
      ∀ cause, effect key found ≠ .error (.outOfBounds cause)) :
    InBounds (effect.run name) container := by
  intro cause failed
  cases slot : container.profile.slot name with
  | error error =>
    rw [Effect.run_of_error slot] at failed
    cases failed
    exact slot_ne_outOfBounds _ _ cause slot
  | ok key =>
    rw [Effect.run_of_ok slot] at failed
    cases made : effect key (container.fields.find? key) with
    | error error =>
      rw [made] at failed
      cases failed
      exact inBounds _ _ (filled.find?_ne key) cause made
    | ok outcome =>
      rw [made] at failed
      cases failed

end InBounds

private theorem inBounds_lastField {container : Container} (filled : Filled container.fields)
    (name : Value) : InBounds (lastField name) container := by
  rw [lastField_eq]
  apply InBounds.run filled
  intro key found notNil cause failed
  cases found with
  | none => cases failed
  | some fields =>
    rw [Effect.present, lastOf_of_ne_nil fun nothing => notNil (congrArg _ nothing)] at failed
    cases failed

private theorem inBounds_takeLastOr {container : Container} (filled : Filled container.fields)
    (name : Value) (default : Option Value) : InBounds (takeLastOr name default) container := by
  rw [takeLastOr_eq]
  apply InBounds.run filled
  intro key found notNil cause failed
  cases found with
  | none => cases default <;> cases failed
  | some fields =>
    simp only [lastOf_of_ne_nil fun nothing => notNil (congrArg _ nothing)] at failed
    cases failed

private theorem inBounds_takeFromFirst {container : Container} (filled : Filled container.fields) :
    InBounds takeFromFirst container := by
  rw [InBounds, takeFromFirst, bind_apply_of_ok (current_apply container)]
  cases container.fields.keys with
  | nil =>
    intro cause failed
    cases failed
  | cons key keys =>
    have taken : InBounds (takeLast key) container := inBounds_takeLastOr filled key none
    exact taken.bind fun _ => .pure _ _

private theorem inBounds_lastPairs {container : Container} (filled : Filled container.fields) :
    InBounds lastPairs container := by
  rw [InBounds, lastPairs, bind_apply_of_ok (current_apply container)]
  exact InBounds.mapM (fun key => (reads_lastField key).bind fun _ => .pure _)
    (fun key => (inBounds_lastField filled key).bind fun _ => .pure _ _) _

/-- The operations that read the last field of one name or of all. -/
inductive Operation.ReadsLast : Operation → Prop
  | lastField (name : Value) : ReadsLast (.lastField name)
  | takeLast (name : Value) (default : Option Value) : ReadsLast (.takeLast name default)
  | takeFromFirst : ReadsLast .takeFromFirst
  | lastFields : ReadsLast .lastFields
  | lastPairs : ReadsLast .lastPairs

/-- Where all names that are present have a field, what reads a last field finds it. -/
theorem Filled.inBounds {container : Container} (filled : Filled container.fields)
    {operation : Operation} (reads : operation.ReadsLast) : InBounds operation.action container := by
  cases reads with
  | lastField name => exact inBounds_lastField filled name
  | takeLast name default => exact inBounds_takeLastOr filled name default
  | takeFromFirst => exact (inBounds_takeFromFirst filled).map _
  | lastFields => exact (inBounds_lastPairs filled).bind fun _ => .pure _ _
  | lastPairs => exact (inBounds_lastPairs filled).bind fun _ => .pure _ _

/-- A name whose fields gave way to nothing is there and cannot be read. -/
theorem lastField_of_vacates {operation : Operation} {container : Container} {name key : Value}
    (vacates : operation.Vacates container key) (slot : container.profile.slot name = .ok key) :
    (perform (.lastField name) (perform operation container).2).1 =
      .error (.outOfBounds (.reading .list)) := by
  have there : ∃ fields, container.fields.find? key = some fields := by
    cases vacates with
    | fill _ found => exact ⟨_, found⟩
  obtain ⟨fields, found⟩ := there
  have left : (container.assign key (some [])).fields.find? key = some [] :=
    MultiMap.find?_put_of_found found []
  -- An assignment changes the fields and not the profile, so the name has the same key as before.
  have slot : (container.assign key (some [])).profile.slot name = .ok key := slot
  rw [perform_of_vacates vacates, perform, Operation.action, lastField_eq, Effect.run_of_ok slot,
    left]
  rfl

/-! ## Runs -/

private theorem after_take_succ (operations : List Operation) (container : Container) (i : Nat)
    (inRun : i < operations.length) :
    after (operations.take (i + 1)) container =
      (perform operations[i] (after (operations.take i) container)).2 := by
  rw [List.take_succ_eq_append_getElem inRun, after, List.foldl_append]
  rfl

/-- A run of operations changes a container in the three ways only. -/
theorem moves_after (operations : List Operation) (container : Container) :
    Moves container (after operations container) := by
  induction operations generalizing container with
  | nil => exact .refl
  | cons operation operations ih => exact (moves_perform operation container).trans (ih _)

/-- However long a container is used, each name that is present has a field at every point, if and only
if no operation of the run fills all positions of a name with nothing. Up to there no read of a last
field is out of bounds, and the operation that does so leaves a name that cannot be read. -/
theorem filled_run_iff (profile : Profile) (operations : List Operation) :
    let state (i : Nat) := after (operations.take i) (.new profile)
    ((∀ i ≤ operations.length, Filled (state i).fields) ↔
        ∀ i, (inRun : i < operations.length) → ∀ key, ¬ operations[i].Vacates (state i) key) ∧
      (∀ i, Filled (state i).fields → ∀ operation : Operation, operation.ReadsLast →
        ∀ cause, (perform operation (state i)).1 ≠ .error (.outOfBounds cause)) ∧
      ∀ i, (inRun : i < operations.length) → ∀ key, operations[i].Vacates (state i) key →
        ∀ name, (state i).profile.slot name = .ok key →
          (perform (.lastField name) (state (i + 1))).1 = .error (.outOfBounds (.reading .list)) := by
  intro state
  have next (i : Nat) (inRun : i < operations.length) :
      state (i + 1) = (perform operations[i] (state i)).2 := after_take_succ operations _ i inRun
  refine ⟨⟨fun filled i inRun => ?_, fun vacatesNone i => ?_⟩, fun i filled operation reads => ?_,
    fun i inRun key vacates name slot => ?_⟩
  · have before := filled i (Nat.le_of_lt inRun)
    rw [← before.step_iff, ← next i inRun]
    exact filled (i + 1) inRun
  · induction i with
    | zero => exact fun _ => .empty
    | succ i ih =>
      intro inRun
      rw [next i inRun, (ih (Nat.le_of_lt inRun)).step_iff]
      exact vacatesNone i inRun
  · exact filled.inBounds reads
  · rw [next i inRun]
    exact lastField_of_vacates vacates slot

theorem filled_run_iff_age :
    let operations : List Operation := [.addField (.text "Age") (.octets [49]),
      .assignFields (.text "age") (.slice .null .null .null) (.tuple [])]
    let state (i : Nat) := after (operations.take i) (.new .common)
    Filled (state 1).fields ∧
      (∀ cause, (perform .lastFields (state 1)).1 ≠ .error (.outOfBounds cause)) ∧
      operations[1].Vacates (state 1) (.text "age") ∧
      (perform (.lastField (.codec .age)) (state 2)).1 = .error (.outOfBounds (.reading .list)) := by
  intro operations state
  have filled : Filled (state 1).fields := by
    intro entry member
    obtain rfl := List.mem_singleton.mp member
    exact List.cons_ne_nil _ _
  have found : (state 1).fields.find? (.text "age") = some [.octets [49]] := rfl
  have series : Selector.ofValue .list (.slice .null .null .null) = .ok (.series none none 1) := rfl
  have vacates : operations[1].Vacates (state 1) (.text "age") :=
    .fill rfl found (List.cons_ne_nil _ _) series (by decide) rfl
  obtain ⟨-, reads, fails⟩ := filled_run_iff .common operations
  exact ⟨filled, reads 1 filled _ .lastFields, vacates, fails 1 (by decide) _ vacates _ rfl⟩

/-- A name whose only field gave way to nothing is still there, and reading it is out of bounds. -/
theorem not_filled_of_vacated_name :
    let container := after [.addField (.text "x") (.octets [97]),
      .assignFields (.text "x") (.slice (.integer 0) (.integer 1) .null) (.list [])] (.new .common)
    container.fields.entries = [(.text "x", [])] ∧ ¬ Filled container.fields ∧
      (perform (.lastField (.text "x")) container).1 = .error (.outOfBounds (.reading .list)) :=
  ⟨rfl, fun filled => filled _ (List.mem_singleton.mpr rfl) rfl, rfl⟩

end TypedHeaders.Container
