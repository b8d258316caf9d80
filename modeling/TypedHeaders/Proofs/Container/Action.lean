import TypedHeaders.Container.Operation
import TypedHeaders.Proofs.MultiMap

/-! # How steps run

A step on one name looks its key up and then depends on nothing but the fields found there, and it
either fails and changes nothing or assigns new fields to that key. Such a step is the run of an
effect, and the laws about names, about other names and about failures hold for all effects at once.
-/

namespace TypedHeaders.Container

variable {α β : Type}

/-! ## Running -/

@[simp]
theorem pure_apply (result : α) (container : Container) :
    (pure result : Action α) container = (.ok result, container) := rfl

@[simp]
theorem throw_apply (error : Error) (container : Container) :
    (throw error : Action α) container = (.error error, container) := rfl

@[simp]
theorem compute_apply (outcome : Except Error α) (container : Container) :
    compute outcome container = (outcome, container) := by cases outcome <;> rfl

@[simp]
theorem current_apply (container : Container) : current container = (.ok container, container) := rfl

@[simp]
theorem changeFields_apply (change : Fields → Fields) (container : Container) :
    changeFields change container = (.ok (), { container with fields := change container.fields }) :=
  rfl

/-- A sequence stops at its first error and keeps what was changed before it. -/
theorem bind_apply (action : Action α) (next : α → Action β) (container : Container) :
    (action >>= next) container =
      match action container with
      | (.ok result, container) => next result container
      | (.error error, container) => (.error error, container) := by
  change ExceptT.bindCont next (action container).1 (action container).2 = _
  rcases action container with ⟨_ | _, _⟩ <;> rfl

theorem bind_apply_of_ok {action : Action α} {container after : Container} {result : α}
    (ok : action container = (.ok result, after)) (next : α → Action β) :
    (action >>= next) container = next result after := by rw [bind_apply, ok]

/-- A handler starts from the container as the failed action left it. -/
theorem tryCatch_apply (action : Action α) (handler : Error → Action α) (container : Container) :
    tryCatch action handler container =
      match action container with
      | (.ok result, container) => (.ok result, container)
      | (.error error, container) => handler error container := by
  rcases outcome : action container with ⟨_ | _, _⟩ <;>
    simp [tryCatch, tryCatchThe, MonadExceptOf.tryCatch, ExceptT.tryCatch, ExceptT.mk, bind,
      StateT.bind, outcome]
  rfl

/-- The alternative is taken when the name is missing. -/
theorem ifMissing_apply_of_missing {action : Action α} {container : Container} {key : Option Value}
    (missing : action container = (.error (.missing key), container)) (alternative : Action α) :
    ifMissing action alternative container = alternative container := by
  rw [ifMissing, tryCatch_apply, missing]

theorem ifMissing_apply_of_ok {action : Action α} {container after : Container} {result : α}
    (ok : action container = (.ok result, after)) (alternative : Action α) :
    ifMissing action alternative container = (.ok result, after) := by
  rw [ifMissing, tryCatch_apply, ok]

/-- Any other error comes out, and the alternative is not tried. -/
theorem ifMissing_apply_of_error {action : Action α} {container after : Container} {error : Error}
    (failed : action container = (.error error, after)) (present : ∀ key, error ≠ .missing key)
    (alternative : Action α) : ifMissing action alternative container = (.error error, after) := by
  rw [ifMissing, tryCatch_apply, failed]
  cases error with
  | missing key => exact (present key rfl).elim
  | _ => rfl

/-! ## Results of operations -/

theorem map_apply (onOk : α → β) (action : Action α) (container : Container) :
    (onOk <$> action) container = ((action container).1.map onOk, (action container).2) := by
  rw [map_eq_pure_bind, bind_apply]
  rcases action container with ⟨_ | _, _⟩ <;> rfl

theorem silently_apply (action : Action Unit) (container : Container) :
    silently action container = ((action container).1.map fun _ => .null, (action container).2) := by
  rw [silently, bind_apply]
  rcases action container with ⟨_ | _, _⟩ <;> rfl

theorem silently_eq_ok_iff (action : Action Unit) (container after : Container) :
    silently action container = (.ok .null, after) ↔ action container = (.ok (), after) := by
  rw [silently_apply]
  rcases action container with ⟨error | ⟨⟩, stop⟩
  · constructor <;> intro same <;> cases same
  · constructor <;> intro same <;> cases same <;> rfl

theorem silently_eq_error_iff (action : Action Unit) (container after : Container) (error : Error) :
    silently action container = (.error error, after) ↔
      action container = (.error error, after) := by
  rw [silently_apply]
  rcases action container with ⟨failure | ⟨⟩, stop⟩
  · constructor <;> intro same <;> cases same <;> rfl
  · constructor <;> intro same <;> cases same

theorem onHeaders_apply {container : Container} (headers : container.profile ≠ .plain)
    (name : String) (action : Action Value) :
    onHeaders name action container = action container := by
  rw [onHeaders, bind_apply_of_ok (current_apply container)]
  cases profile : container.profile with
  | plain => exact (headers profile).elim
  | headers => rfl

end TypedHeaders.Container
