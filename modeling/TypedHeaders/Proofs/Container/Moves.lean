import Mathlib.Logic.Relation
import TypedHeaders.Proofs.Container.Change

/-! # What operations can do to a container

A merge makes one change after the other, and any other operation one at most. Whatever is asked of a
container, it changes only in three ways: the fields under the key of a name are assigned, all fields
are dropped, or something is attached beside the fields. A property that these three keep is kept by
every operation.
-/

namespace TypedHeaders.Container

variable {α β : Type}

/-! ## Several changes -/

/-- The containers that come of one by changes that leave no name without a field that had one. -/
abbrev Changes : Container → Container → Prop := Relation.ReflTransGen Change

/-- A run that ends in one change goes through changes only. -/
theorem Ends.changes {container : Container} {run : Except Error α × Container}
    (ends : Ends container run) : Changes container run.2 := by
  cases ends with
  | failed error => exact .refl
  | done result change => exact .single change

/-- A step that makes any number of changes, also where it fails. -/
def Changing (action : Action α) : Prop := ∀ container, Changes container (action container).2

theorem Single.changing {action : Action α} (single : Single action) : Changing action :=
  fun container => (single container).changes

namespace Changing

/-- A sequence goes through the changes of both of its parts. -/
theorem bind {action : Action α} {next : α → Action β} (first : Changing action)
    (second : ∀ result, Changing (next result)) : Changing (action >>= next) := by
  intro container
  have changes := first container
  rw [bind_apply]
  rcases outcome : action container with ⟨error | result, after⟩ <;> rw [outcome] at changes
  · exact changes
  · exact changes.trans (second result after)

theorem forM {step : α → Action PUnit} (changing : ∀ item, Changing (step item)) :
    ∀ items : List α, Changing (items.forM step)
  | [] => (Reads.pure _).single.changing
  | item :: items => (changing item).bind fun _ => forM changing items

end Changing

private theorem changing_setLasts (pairs : List (Except Error (Value × Value))) :
    Changing (setLasts pairs) := by
  unfold setLasts
  apply Changing.forM
  intro pair
  exact (Single.bind (.compute pair) fun entry => single_setLast entry.1 entry.2).changing

/-- The pairs that a merge sets, in their order: those of an operand and then those that are named. -/
def mergedPairs (operand : Option Operand) (named : List (String × Value)) :
    Except Error (List (Except Error (Value × Value))) :=
  (operand.elim (.ok []) Operand.pairs).map
    (· ++ named.map fun entry => .ok (.text entry.1, entry.2))

/-- Storing two lists of pairs is storing one after the other. -/
theorem setLasts_append (first second : List (Except Error (Value × Value))) :
    setLasts (first ++ second) = setLasts first >>= fun _ => setLasts second := by
  simp only [setLasts, List.forM_eq_forM, List.forM_append]

/-- Merging stores the pairs of the operand and after them the named ones. -/
theorem merge_eq (operand : Option Operand) (named : List (String × Value)) :
    merge operand named = compute (mergedPairs operand named) >>= setLasts := by
  funext container
  cases operand with
  | none => simp [merge, mergedPairs, bind_apply, Except.map]
  | some operand =>
    simp only [merge, mergedPairs, Option.elim_some, bind_apply, compute_apply]
    cases operand.pairs with
    | error error => rfl
    | ok pairs =>
      simp only [Except.map, setLasts_append, bind_apply]

private theorem changing_merge (operand : Option Operand) (named : List (String × Value)) :
    Changing (merge operand named) := by
  rw [merge_eq]
  exact (Reads.compute _).single.changing.bind changing_setLasts

/-- Any operation changes a container so that no name is left without a field that had one, but for
the operation that fills positions with nothing. -/
theorem perform_changes (operation : Operation) (container : Container) :
    Changes container (perform operation container).2 ∨
      ∃ key, operation.Vacates container key := by
  by_cases isSingle : operation.IsSingle
  · exact (perform_cases isSingle container).imp_left Ends.changes
  · obtain ⟨operand, named, rfl⟩ : ∃ operand named, operation = .merge operand named := by
      simpa [Operation.IsSingle] using isSingle
    left
    rw [perform, Operation.action, silently_apply]
    exact changing_merge operand named container

/-! ## The three ways -/

/-- The containers that come of one by changes of the three kinds. -/
inductive Moves (start : Container) : Container → Prop
  | refl : Moves start start
  | assign {container : Container} {name key : Value} (moves : Moves start container)
      (slot : container.profile.slot name = .ok key) (fields : Option (List Value)) :
      Moves start (container.assign key fields)
  | clear {container : Container} (moves : Moves start container) :
      Moves start { container with fields := .empty }
  | attach {container : Container} (moves : Moves start container)
      (attached : List (String × Value)) : Moves start { container with attached := attached }

theorem Moves.change {start container after : Container} (moves : Moves start container)
    (change : Change container after) : Moves start after := by
  cases change with
  | none => exact moves
  | assign slot fields _ => exact moves.assign slot fields
  | clear => exact moves.clear
  | attach attached => exact moves.attach attached

theorem Changes.moves {start container : Container} (changes : Changes start container) :
    Moves start container := by
  induction changes with
  | refl => exact .refl
  | tail _ change ih => exact ih.change change

/-- Moves can be chained. -/
theorem Moves.trans {start container after : Container} (first : Moves start container)
    (second : Moves container after) : Moves start after := by
  induction second with
  | refl => exact first
  | assign _ slot fields ih => exact ih.assign slot fields
  | clear _ ih => exact ih.clear
  | attach _ attached ih => exact ih.attach attached

/-- Moving keeps the profile. -/
theorem Moves.profile {start container : Container} (moves : Moves start container) :
    container.profile = start.profile := by
  induction moves with
  | refl => rfl
  | assign _ _ _ ih => exact ih
  | clear _ ih => exact ih
  | attach _ _ ih => exact ih

/-- Every operation changes a container in the three ways only. -/
theorem moves_perform (operation : Operation) (container : Container) :
    Moves container (perform operation container).2 := by
  rcases perform_changes operation container with changes | ⟨key, vacates⟩
  · exact changes.moves
  · rw [perform_of_vacates vacates]
    cases vacates with
    | fill slot => exact Moves.refl.assign slot (some [])

end TypedHeaders.Container
