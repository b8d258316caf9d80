import TypedHeaders.Container.Wire
import TypedHeaders.Proofs.Container.Effect

/-! # Operations on one name

Most of what can be asked of a container is asked of one name. Such an operation reads the fields
under the key of the name, gives a result or fails, and leaves other fields there or the same; apart
from that it neither sees nor touches anything. Two names with one key are therefore the same to it,
save that a codec is more than a name where values are encoded or decoded.
-/

namespace TypedHeaders.Container

variable {α β : Type}

namespace Effect

def map (onOk : α → β) (effect : Effect α) : Effect β := fun key found =>
  (effect key found).map fun entry => (onOk entry.1, entry.2)

/-- An effect that only headers have, under a name. -/
def onHeaders (profile : Profile) (method : String) (effect : Effect α) : Effect α :=
  match profile with
  | .plain => fun _ _ => .error (.noAttribute (.ofObject profile.typeName method))
  | .headers .. => effect

def reading (read : List Value → Except Error α) : Effect α := fun _ found =>
  (read (found.getD [])).map (·, found)

end Effect

/-- An operation on one name, without the name. -/
inductive NameOperation where
  | valueOf (default : Value)
  | setValue (value : Value)
  | removeHeader
  | fieldsOrNone
  | replaceFields (fields : Value)
  | presentFields
  | eraseName
  | countFields
  | selectFields (index : Value)
  | assignFields (index value : Value)
  | eraseFields (index : Value)
  | addField (field : Value)
  | takeLast (default : Option Value)
  | lastOrAdd (field : Value)
  | lastField
  | setLast (field : Value)
  | eraseLast
  | hasName

namespace NameOperation

def on (name : Value) : NameOperation → Operation
  | .valueOf default => .valueOf name default
  | .setValue value => .setValue name value
  | .removeHeader => .removeHeader name
  | .fieldsOrNone => .fieldsOrNone name
  | .replaceFields fields => .replaceFields name fields
  | .presentFields => .presentFields name
  | .eraseName => .eraseName name
  | .countFields => .countFields name
  | .selectFields index => .selectFields name index
  | .assignFields index value => .assignFields name index value
  | .eraseFields index => .eraseFields name index
  | .addField field => .addField name field
  | .takeLast default => .takeLast name default
  | .lastOrAdd field => .lastOrAdd name field
  | .lastField => .lastField name
  | .setLast field => .setLast name field
  | .eraseLast => .eraseLast name
  | .hasName => .hasName name

/-- The value under a name as an effect: a codec decodes the fields of headers, and otherwise the last
field is the value. -/
def valueEffect (profile : Profile) (name default : Value) : Effect Value :=
  match profile, name with
  | .headers .., .codec codec =>
    .reading fun fields => (codec.decodeFields fields).map fun reading => reading.value.getD default
  | _, _ => fun _ found =>
    match found with
    | some fields => (lastOf fields).map (·, some fields)
    | none => .ok (default, none)

/-- What an operation makes of the fields under the key of a name. -/
def effect (profile : Profile) (name : Value) : NameOperation → Effect Value
  | .valueOf default => valueEffect profile name default
  | .setValue value =>
    .onHeaders profile "set" fun _ _ =>
      (encoded name value).map fun data => (.null, some [.octets data])
  | .removeHeader => .onHeaders profile "remove" fun _ _ => .ok (.null, none)
  | .fieldsOrNone => .onHeaders profile "get_raw" (.reading fun fields => .ok (.tuple fields))
  | .replaceFields fields =>
    .onHeaders profile "set_raw" fun _ _ =>
      (byteFields fields).map fun fields => (.null, Effect.settled fields)
  | .presentFields => .present fun fields => .ok (.tuple fields, some fields)
  | .eraseName => .present fun _ => .ok (.null, none)
  | .countFields => .present fun fields => .ok (.integer fields.length, some fields)
  | .selectFields index =>
    .present fun fields =>
      ((Selector.ofValue .list index).bind (selected · fields)).map (·, some fields)
  | .assignFields index value =>
    .present fun fields =>
      ((Selector.ofValue .list index).bind (assigned · value fields)).map
        fun fields => (.null, some fields)
  | .eraseFields index =>
    .present fun fields =>
      ((Selector.ofValue .list index).bind (remaining · fields)).map
        fun fields => (.null, Effect.settled fields)
  | .addField field => fun _ found => .ok (.null, some (found.getD [] ++ [field]))
  | .takeLast default => fun key found =>
    match found with
    | some fields => (lastOf fields).map (·, Effect.settled fields.dropLast)
    | none =>
      match default with
      | some default => .ok (default, none)
      | none => .error (.missing (some key))
  | .lastOrAdd field => fun _ found =>
    match found with
    | some fields => (lastOf fields).map (·, some fields)
    | none => .ok (field, some [field])
  | .lastField => .present fun fields => (lastOf fields).map (·, some fields)
  | .setLast field => fun _ found =>
    match found with
    | some [] => .error (.outOfBounds .writing)
    | found => .ok (.null, some ((found.getD []).dropLast ++ [field]))
  | .eraseLast =>
    .present fun fields =>
      if fields = [] then .error (.outOfBounds .writing)
      else .ok (.null, Effect.settled fields.dropLast)
  | .hasName => fun _ found => .ok (.boolean found.isSome, found)

end NameOperation

/-! ## Performing them -/

private theorem map_eq_run {action : Action α} {effect : Effect α} {name : Value}
    (eq : action = effect.run name) (onOk : α → β) :
    onOk <$> action = (effect.map onOk).run name := by
  funext container
  rw [eq, map_apply, Effect.run, Effect.run]
  cases container.profile.slot name with
  | error error => rfl
  | ok key => exact leave_map onOk container key _

private theorem silently_eq_run {action : Action Unit} {effect : Effect Unit} {name : Value}
    (eq : action = effect.run name) :
    silently action = (effect.map fun _ => .null).run name := by
  rw [← map_eq_run eq, silently, map_eq_pure_bind]

private theorem Effect.map_present (onOk : α → β)
    (step : List Value → Except Error (α × Option (List Value))) :
    (Effect.present step).map onOk =
      .present fun fields => (step fields).map fun entry => (onOk entry.1, entry.2) := by
  funext key found
  cases found <;> rfl

/-- An effect that computes the fields to be left, with another result. -/
theorem Effect.map_present_left (onOk : α → β) (result : α)
    (step : List Value → Except Error (List Value)) (left : List Value → Option (List Value)) :
    (Effect.present fun fields => (step fields).map fun fields => (result, left fields)).map onOk =
      .present fun fields => (step fields).map fun fields => (onOk result, left fields) := by
  rw [map_present]
  congr 1
  funext fields
  cases step fields <;> rfl

/-- Headers have every method, so the check for it does nothing there. -/
theorem Effect.onHeaders_of_headers {profile : Profile} (headers : profile ≠ .plain) (method : String)
    (effect : Effect α) : effect.onHeaders profile method = effect := by
  cases profile with
  | plain => exact (headers rfl).elim
  | headers => rfl

private theorem onHeaders_apply_eq_leave {container : Container} {key : Value}
    {action : Action Value} {effect : Effect Value}
    (runs : action container = container.leave key (effect key (container.fields.find? key)))
    (method : String) :
    onHeaders method action container = container.leave key
      (effect.onHeaders container.profile method key (container.fields.find? key)) := by
  rw [onHeaders, bind_apply_of_ok (current_apply container)]
  cases profile : container.profile with
  | plain =>
    simp only [noAttribute, bind_apply_of_ok (current_apply container), profile]
    rfl
  | headers => exact runs

section Performing

variable {container : Container} {name key : Value}

theorem fieldsOrNone_apply (slot : container.profile.slot name = .ok key) :
    fieldsOrNone name container = (.ok (container.fieldsOf key), container) := by
  have left := container.leave_found key (.ok (container.fieldsOf key))
  rw [fieldsOrNone_eq, Effect.run_of_ok slot, ← left, fieldsOf]
  cases container.fields.find? key <;> rfl

theorem hasName_apply (slot : container.profile.slot name = .ok key) :
    hasName name container = (.ok (container.fields.find? key).isSome, container) := by
  rw [hasName_eq, Effect.run_of_ok slot]
  exact container.leave_found key (.ok _)

theorem valueOf_codec_apply {codec : Codec} (slot : container.profile.slot (.codec codec) = .ok key)
    (default : Value) : valueOf (.codec codec) default container =
      ((codec.decodeFields (container.fieldsOf key)).map fun reading =>
        reading.value.getD default, container) := by
  rw [valueOf, bind_apply_of_ok (fieldsOrNone_apply slot), bind_apply, compute_apply]
  cases codec.decodeFields (container.fieldsOf key) <;> rfl

private theorem perform_valueOf (slot : container.profile.slot name = .ok key) (default : Value) :
    perform (.valueOf name default) container = container.leave key
      (NameOperation.valueEffect container.profile name default key
        (container.fields.find? key)) := by
  have lastField := congrFun (lastFieldOr_eq name default) container
  rw [Effect.run_of_ok slot] at lastField
  rw [perform, Operation.action, valueOrField, bind_apply_of_ok (current_apply container)]
  cases container.profile with
  | plain => exact lastField
  | headers =>
    cases name with
    | codec codec =>
      rw [NameOperation.valueEffect, Effect.reading, leave_found]
      exact valueOf_codec_apply slot default
    | _ => exact lastField

/-- An operation on a name depends only on the fields under the key of the name, and changes only
these. -/
theorem perform_on (slot : container.profile.slot name = .ok key) (operation : NameOperation) :
    perform (operation.on name) container =
      container.leave key
        (operation.effect container.profile name key (container.fields.find? key)) := by
  -- A step that is the run of an effect leaves what the effect makes of the fields found there.
  have run {action : Action Value} {effect : Effect Value} (eq : action = effect.run name) :
      action container = container.leave key (effect key (container.fields.find? key)) := by
    rw [eq, Effect.run_of_ok slot]
  cases operation with
  | valueOf default => exact perform_valueOf slot default
  | setValue value =>
    apply onHeaders_apply_eq_leave
    rw [silently_apply, setValue_apply slot, leave_map]
    cases encoded name value <;> rfl
  | removeHeader =>
    apply onHeaders_apply_eq_leave
    rw [silently_apply, removeHeader_apply slot]
    rfl
  | fieldsOrNone =>
    apply onHeaders_apply_eq_leave
    rw [map_eq_run (fieldsOrNone_eq name), Effect.run_of_ok slot]
    cases container.fields.find? key <;> rfl
  | replaceFields fields =>
    apply onHeaders_apply_eq_leave
    rw [silently_apply, replaceFields_apply slot, leave_map]
    cases byteFields fields <;> rfl
  | presentFields =>
    exact run ((map_eq_run (presentFields_eq name) _).trans (by rw [Effect.map_present]; rfl))
  | eraseName =>
    exact run ((silently_eq_run (eraseName_eq name)).trans (by rw [Effect.map_present]; rfl))
  | countFields =>
    have counts : (Operation.countFields name).action =
        (fun count : Nat => .integer count) <$> Container.countFields name := by
      rw [Operation.action, bind_pure_comp, Functor.map_map]
    exact run (counts.trans ((map_eq_run (countFields_eq name) _).trans
      (by rw [Effect.map_present]; rfl)))
  | selectFields index => exact run (selectFields_eq name index)
  | assignFields index value =>
    exact run ((silently_eq_run (assignFields_eq name index value)).trans
      (by rw [Effect.map_present_left]; rfl))
  | eraseFields index =>
    exact run ((silently_eq_run (eraseFields_eq name index)).trans
      (by rw [Effect.map_present_left]; rfl))
  | addField field => exact run (silently_eq_run (addField_eq name field))
  | takeLast default => exact run (takeLastOr_eq name default)
  | lastOrAdd field => exact run (lastOrAdd_eq name field)
  | lastField => exact run (lastField_eq name)
  | setLast field =>
    rw [NameOperation.on, perform, Operation.action, silently_eq_run (setLast_eq name field),
      Effect.run_of_ok slot]
    rcases container.fields.find? key with _ | _ | _ <;> rfl
  | eraseLast =>
    rw [NameOperation.on, perform, Operation.action, silently_eq_run (eraseLast_eq name),
      Effect.run_of_ok slot]
    rcases container.fields.find? key with _ | _ | _ <;> rfl
  | hasName => exact run (map_eq_run (hasName_eq name) _)

end Performing

/-! ## What is left -/

/-- The fields that a step leaves where it found some, which stay if it fails. -/
def left (found : Option (List Value)) :
    Except Error (α × Option (List Value)) → Option (List Value)
  | .error _ => found
  | .ok made => made.2

/-- A step on a key gives a result or fails, and assigns what it leaves there. -/
theorem leave_eq_assign (container : Container) (key : Value)
    (made : Except Error (α × Option (List Value))) :
    container.leave key made =
      (made.map Prod.fst, container.assign key (left (container.fields.find? key) made)) := by
  cases made with
  | error error => simp only [leave, left, assign_find?, Except.map]
  | ok made => rfl

/-- The result of an operation on a name, and the fields that it leaves under the key of the name. -/
def NameOperation.outcome (operation : NameOperation) (container : Container) (name key : Value) :
    Except Error Value × Option (List Value) :=
  let found := container.fields.find? key
  let made := operation.effect container.profile name key found
  (made.map Prod.fst, left found made)

/-- Performing an operation on a name gives its outcome there and leaves the other names alone. -/
theorem perform_on_eq {container : Container} {name key : Value}
    (slot : container.profile.slot name = .ok key) (operation : NameOperation) :
    perform (operation.on name) container =
      ((operation.outcome container name key).1,
        container.assign key (operation.outcome container name key).2) := by
  rw [perform_on slot, leave_eq_assign]
  rfl

end TypedHeaders.Container
