import TypedHeaders.Proofs.Container.Action

/-! # Steps on one name

A step on one name looks its key up, and then depends on nothing but the fields found there. It
either fails and changes nothing, or it says which fields are to be found there afterwards. What such
a step does is an effect, and all that a container can do with a name is the run of one.
-/

namespace TypedHeaders

/-- The key under which a container looks a name up, which has to have a digest. -/
def Profile.slot (profile : Profile) (name : Value) : Except Error Value :=
  (profile.key name).bind fun key => (Container.requireDigest key).map fun _ => key

namespace Container

variable {α β : Type}

/-- The container with these fields under a key, or without the key. -/
def assign (key : Value) (fields : Option (List Value)) (container : Container) : Container :=
  { container with fields := container.fields.assign key fields }

@[simp]
theorem assign_profile (key : Value) (fields : Option (List Value)) (container : Container) :
    (container.assign key fields).profile = container.profile := rfl

@[simp]
theorem assign_attached (key : Value) (fields : Option (List Value)) (container : Container) :
    (container.assign key fields).attached = container.attached := rfl

@[simp]
theorem assign_fields (key : Value) (fields : Option (List Value)) (container : Container) :
    (container.assign key fields).fields = container.fields.assign key fields := rfl

/-- Assigning what is there changes nothing. -/
theorem assign_find? (container : Container) (key : Value) :
    container.assign key (container.fields.find? key) = container := by
  simp only [assign, MultiMap.assign_find?]

/-- What a step makes of the fields under a key, or of nothing where the key is missing: a result
and the fields to be found there afterwards. -/
abbrev Effect (α : Type) := Value → Option (List Value) → Except Error (α × Option (List Value))

/-- The container after a step on a key, which changes nothing if it fails. -/
def leave (container : Container) (key : Value) :
    Except Error (α × Option (List Value)) → Except Error α × Container
  | .error error => (.error error, container)
  | .ok (result, fields) => (.ok result, container.assign key fields)

/-- A step that leaves the fields as they are found only gives its result. -/
theorem leave_found (container : Container) (key : Value) (outcome : Except Error α) :
    container.leave key (outcome.map fun result => (result, container.fields.find? key)) =
      (outcome, container) := by
  cases outcome with
  | error error => rfl
  | ok result => simp only [Except.map, leave, assign_find?]

/-- A failed step leaves the container alone. -/
theorem leave_eq_of_error {container : Container} {key : Value}
    {made : Except Error (α × Option (List Value))} {error : Error}
    (failed : (container.leave key made).1 = .error error) :
    (container.leave key made).2 = container := by
  cases made with
  | error error => rfl
  | ok made => cases failed

theorem leave_map (onOk : α → β) (container : Container) (key : Value)
    (made : Except Error (α × Option (List Value))) :
    ((container.leave key made).1.map onOk, (container.leave key made).2) =
      container.leave key (made.map fun entry => (onOk entry.1, entry.2)) := by
  cases made <;> rfl

namespace Effect

def run (effect : Effect α) (name : Value) : Action α := fun container =>
  match container.profile.slot name with
  | .error error => (.error error, container)
  | .ok key => container.leave key (effect key (container.fields.find? key))

/-- An effect on fields that have to be there. -/
def present (step : List Value → Except Error (α × Option (List Value))) : Effect α :=
  fun key found =>
    match found with
    | some fields => step fields
    | none => .error (.missing (some key))

/-- Fields to be found under a key, which goes if there are none. -/
def settled (fields : List Value) : Option (List Value) := if fields = [] then none else some fields

/-- A settled list is kept unless it is empty. -/
theorem settled_eq_some_iff (fields fields' : List Value) :
    settled fields = some fields' ↔ fields ≠ [] ∧ fields = fields' := by
  unfold settled
  split <;> simp_all

/-- Without a slot for the name nothing is read and nothing changes. -/
theorem run_of_error {container : Container} {name : Value} {error : Error}
    (noSlot : container.profile.slot name = .error error) (effect : Effect α) :
    effect.run name container = (.error error, container) := by simp only [run, noSlot]

/-- With a slot the step sees the fields found there and leaves its own. -/
theorem run_of_ok {container : Container} {name key : Value}
    (slot : container.profile.slot name = .ok key) (effect : Effect α) :
    effect.run name container = container.leave key (effect key (container.fields.find? key)) := by
  simp only [run, slot]

end Effect

/-! ## Looking up -/

theorem slot_apply (name : Value) (container : Container) :
    slot name container = (container.profile.slot name, container) := by
  simp only [slot, keyFor, Profile.slot, bind_apply, current_apply, compute_apply]
  rcases container.profile.key name with error | key
  · rfl
  · simp only [Except.bind]
    rcases requireDigest key with error | _ <;> rfl

/-- Reading a slot that is not there misses its key. -/
theorem fieldsAt_apply (key : Value) (container : Container) :
    fieldsAt key container =
      match container.fields.find? key with
      | some fields => (.ok fields, container)
      | none => (.error (.missing (some key)), container) := by
  simp only [fieldsAt, bind_apply, current_apply]
  cases container.fields.find? key <;> rfl

private theorem slot_bind_eq {name : Value} {next : Value → Action α} {effect : Effect α}
    (runs : ∀ container key,
      next key container = container.leave key (effect key (container.fields.find? key))) :
    slot name >>= next = effect.run name := by
  funext container
  rw [bind_apply, slot_apply, Effect.run]
  rcases container.profile.slot name with error | key
  · rfl
  · exact runs container key

private theorem slot_bind_fieldsAt_eq {name : Value} {next : Value → List Value → Action α}
    {step : List Value → Except Error (α × Option (List Value))}
    (runs : ∀ container key fields, container.fields.find? key = some fields →
      next key fields container = container.leave key (step fields)) :
    (do
      let key ← slot name
      let fields ← fieldsAt key
      next key fields) = (Effect.present step).run name := by
  apply slot_bind_eq
  intro container key
  rw [bind_apply, fieldsAt_apply]
  cases found : container.fields.find? key with
  | none => rfl
  | some fields => exact runs container key fields found

private theorem presentFields_bind_eq {name : Value} {next : List Value → Action α}
    (step : List Value → Except Error α)
    (runs : ∀ container fields, next fields container = (step fields, container)) :
    presentFields name >>= next =
      (Effect.present fun fields => (step fields).map (·, some fields)).run name := by
  rw [presentFields, bind_assoc]
  apply slot_bind_fieldsAt_eq
  intro container key fields found
  rw [runs, ← found, leave_found]

/-! ## Steps that need the name -/

theorem presentFields_eq (name : Value) :
    presentFields name = (Effect.present fun fields => .ok (fields, some fields)).run name := by
  rw [← bind_pure (presentFields name)]
  exact presentFields_bind_eq .ok fun _ _ => rfl

theorem lastField_eq (name : Value) :
    lastField name =
      (Effect.present fun fields => (lastOf fields).map (·, some fields)).run name := by
  apply slot_bind_fieldsAt_eq
  intro container key fields found
  rw [compute_apply, ← found, leave_found]

private theorem changeFields_settle (key : Value) (fields : List Value) (container : Container) :
    changeFields (·.settle key fields) container =
      container.leave key (.ok ((), Effect.settled fields)) := by
  simp only [changeFields_apply, MultiMap.settle_eq_assign]
  rfl

/-- Erasing the last field of a name drops the name with its only field. -/
theorem eraseLast_eq (name : Value) :
    eraseLast name = (Effect.present fun fields =>
      if fields = [] then .error (.outOfBounds .writing)
      else .ok ((), Effect.settled fields.dropLast)).run name := by
  apply slot_bind_fieldsAt_eq
  intro container key fields found
  cases fields with
  | nil => rfl
  | cons first rest => exact changeFields_settle key _ container

theorem eraseName_eq (name : Value) :
    eraseName name = (Effect.present fun _ => .ok ((), none)).run name :=
  slot_bind_fieldsAt_eq fun _ _ _ _ => rfl

theorem countFields_eq (name : Value) :
    countFields name =
      (Effect.present fun fields => .ok (fields.length, some fields)).run name :=
  presentFields_bind_eq (fun fields => .ok fields.length) fun _ _ => rfl

/-- The field at an index, or those at a series of positions as a list. -/
def selected (selector : Selector) (fields : List Value) : Except Error Value :=
  match selector with
  | .index i =>
    match (Selector.position? fields.length i).bind (fields[·]?) with
    | some field => .ok field
    | none => .error (.outOfBounds (.reading .list))
  | .series start stop step =>
    .ok (.list (itemsAt (Selector.positions fields.length start stop step) fields))

theorem selectFields_eq (name index : Value) :
    selectFields name index = (Effect.present fun fields =>
      ((Selector.ofValue .list index).bind (selected · fields)).map (·, some fields)).run name := by
  apply presentFields_bind_eq _
  intro container fields
  rw [bind_apply, compute_apply]
  cases Selector.ofValue .list index with
  | error error => rfl
  | ok selector =>
    cases selector with
    | index i =>
      simp only [Except.bind, selected]
      cases (Selector.position? fields.length i).bind (fields[·]?) <;> rfl
    | series start stop step => rfl

/-- Assigning by index keeps the name, even where the assignment empties its list. -/
theorem assignFields_eq (name index value : Value) :
    assignFields name index value = (Effect.present fun fields =>
      ((Selector.ofValue .list index).bind (assigned · value fields)).map
        fun fields => ((), some fields)).run name := by
  apply slot_bind_fieldsAt_eq
  intro container key fields found
  rw [bind_apply, compute_apply]
  cases Selector.ofValue .list index with
  | error error => rfl
  | ok selector =>
    simp only [bind_apply, compute_apply, Except.bind]
    cases assigned selector value fields <;> rfl

/-- Erasing by index drops the name once no field is left. -/
theorem eraseFields_eq (name index : Value) :
    eraseFields name index = (Effect.present fun fields =>
      ((Selector.ofValue .list index).bind (remaining · fields)).map
        fun fields => ((), Effect.settled fields)).run name := by
  apply slot_bind_fieldsAt_eq
  intro container key fields found
  rw [bind_apply, compute_apply]
  cases Selector.ofValue .list index with
  | error error => rfl
  | ok selector =>
    simp only [bind_apply, compute_apply, Except.bind]
    cases remaining selector fields with
    | error error => rfl
    | ok fields => exact changeFields_settle key fields container

theorem takeLast_eq (name : Value) :
    takeLast name = (Effect.present fun fields =>
      (lastOf fields).map (·, Effect.settled fields.dropLast)).run name := by
  funext container
  rw [takeLast, bind_apply, lastField_eq]
  cases slot : container.profile.slot name with
  | error error => simp only [Effect.run_of_error slot]
  | ok key =>
    simp only [Effect.run_of_ok slot]
    cases found : container.fields.find? key with
    | none => rfl
    | some fields =>
      simp only [Effect.present]
      rw [← found, leave_found]
      cases last : lastOf fields with
      | error error => rfl
      | ok field =>
        have some : fields ≠ [] := by
          rintro rfl
          cases last
        simp only [bind_apply, eraseLast_eq, Effect.run_of_ok slot, found, Effect.present, some,
          ↓reduceIte]
        rfl

/-! ## Steps that do without the name -/

theorem hasName_eq (name : Value) :
    hasName name = Effect.run (fun _ found => .ok (found.isSome, found)) name := by
  apply slot_bind_eq
  intro container key
  exact (container.leave_found key (.ok (container.fields.find? key).isSome)).symm

/-- Setting a name replaces its last field or adds a first one, and fails on an emptied list. -/
theorem setLast_eq (name field : Value) :
    setLast name field = Effect.run (fun _ found =>
      match found with
      | some [] => .error (.outOfBounds .writing)
      | found => .ok ((), some ((found.getD []).dropLast ++ [field]))) name := by
  apply slot_bind_eq
  intro container key
  rw [bind_apply, current_apply]
  cases found : container.fields.find? key with
  | none => simp only [found]; rfl
  | some fields =>
    simp only [found]
    cases fields with
    | nil => rfl
    | cons first rest => rfl

theorem addField_eq (name field : Value) :
    addField name field =
      Effect.run (fun _ found => .ok ((), some (found.getD [] ++ [field]))) name :=
  slot_bind_eq fun _ _ => rfl

/-! ## Steps with something in place of a missing name -/

/-- What can be the matter with a name that cannot be looked up. -/
theorem slot_error_cases {profile : Profile} {name : Value} {error : Error}
    (failed : profile.slot name = .error error) :
    (∃ cause, error = .invalidValue cause) ∨ (∃ cause, error = .wrongType cause) ∨
      ∃ cause, error = .noAttribute cause := by
  unfold Profile.slot at failed
  cases made : profile.key name with
  | ok slot =>
    rw [made] at failed
    simp only [Except.bind, requireDigest, Value.hashed] at failed
    cases digest : slot.digest with
    | error type =>
      rw [digest] at failed
      cases failed
      exact .inr (.inl ⟨_, rfl⟩)
    | ok digest' =>
      rw [digest] at failed
      cases failed
  | error error =>
    rw [made] at failed
    cases failed
    cases profile with
    | plain => cases made
    | headers typeName attributes =>
      cases name with
      | codec identity =>
        simp only [Profile.key] at made
        cases header : identity.header with
        | none =>
          rw [header] at made
          cases made
          exact .inl ⟨_, rfl⟩
        | some header' => simp [header, Name.lower] at made
      | text | octets | buffer => simp [Profile.key, Name.lower] at made
      | _ =>
        cases made
        exact .inr (.inr ⟨_, rfl⟩)

/-- A name that cannot be looked up is not reported as missing. -/
theorem slot_ne_missing (profile : Profile) (name : Value) (key : Option Value) :
    profile.slot name ≠ .error (.missing key) := by
  intro failed
  rcases slot_error_cases failed with ⟨cause, same⟩ | ⟨cause, same⟩ | ⟨cause, same⟩ <;> cases same

/-- Looking up a slot never runs out of bounds. -/
theorem slot_ne_outOfBounds (profile : Profile) (name : Value) (cause : Bounds) :
    profile.slot name ≠ .error (.outOfBounds cause) := by
  intro failed
  rcases slot_error_cases failed with ⟨cause, same⟩ | ⟨cause, same⟩ | ⟨cause, same⟩ <;> cases same

private theorem ifMissing_present_eq {name : Value} {alternative : Action α}
    {step : List Value → Except Error (α × Option (List Value))}
    {made : Value → Except Error (α × Option (List Value))}
    (present : ∀ fields key, step fields ≠ .error (.missing key))
    (runs : ∀ container key, container.profile.slot name = .ok key →
      container.fields.find? key = none → alternative container = container.leave key (made key)) :
    ifMissing ((Effect.present step).run name) alternative = Effect.run (fun key found =>
      match found with
      | some fields => step fields
      | none => made key) name := by
  funext container
  cases slot : container.profile.slot name with
  | error error =>
    have noKey (key : Option Value) : error ≠ .missing key := fun missing =>
      slot_ne_missing container.profile name key (missing ▸ slot)
    rw [Effect.run_of_error slot]
    exact ifMissing_apply_of_error (Effect.run_of_error slot _) noKey _
  | ok key =>
    have run := Effect.run_of_ok slot (Effect.present step)
    rw [Effect.run_of_ok slot]
    cases found : container.fields.find? key with
    | none =>
      rw [found] at run
      rw [ifMissing_apply_of_missing run]
      exact runs container key slot found
    | some fields =>
      simp only [found, Effect.present] at run
      simp only
      cases result : step fields with
      | error error =>
        -- The name is there, so the error of the step is not taken for a missing name.
        have noKey (key : Option Value) : error ≠ .missing key := fun missing =>
          present fields key (missing ▸ result)
        rw [result] at run
        exact ifMissing_apply_of_error run noKey _
      | ok result' =>
        rw [result] at run
        exact ifMissing_apply_of_ok run _

private theorem lastOf_map_ne_missing (fields : List Value) (key : Option Value)
    (onOk : Value → α) : (lastOf fields).map onOk ≠ .error (.missing key) := by
  unfold lastOf
  split <;> simp [Except.map]

private theorem leave_of_none {container : Container} {key : Value}
    (found : container.fields.find? key = none) (outcome : Except Error α) :
    container.leave key (outcome.map (·, none)) = (outcome, container) := by
  rw [← found, leave_found]

theorem fieldsOrNone_eq (name : Value) :
    fieldsOrNone name = Effect.run (fun _ found =>
      match found with
      | some fields => .ok (fields, some fields)
      | none => .ok ([], none)) name := by
  rw [fieldsOrNone, presentFields_eq]
  apply ifMissing_present_eq
  · intro fields key missing
    cases missing
  · intro container key _ found
    exact (leave_of_none found (.ok [])).symm

theorem lastFieldOr_eq (name default : Value) :
    lastFieldOr name default = Effect.run (fun _ found =>
      match found with
      | some fields => (lastOf fields).map (·, some fields)
      | none => .ok (default, none)) name := by
  rw [lastFieldOr, lastField_eq]
  apply ifMissing_present_eq
  · intro fields key
    exact lastOf_map_ne_missing fields key _
  · intro container key _ found
    exact (leave_of_none found (.ok default)).symm

theorem takeLastOr_eq (name : Value) (default : Option Value) :
    takeLastOr name default = Effect.run (fun key found =>
      match found with
      | some fields => (lastOf fields).map (·, Effect.settled fields.dropLast)
      | none =>
        match default with
        | some default => .ok (default, none)
        | none => .error (.missing (some key))) name := by
  cases default with
  | none => exact takeLast_eq name
  | some default =>
    rw [takeLastOr, takeLast_eq]
    apply ifMissing_present_eq
    · intro fields key
      exact lastOf_map_ne_missing fields key _
    · intro container key _ found
      exact (leave_of_none found (.ok default)).symm

/-- The default is added only where the name is missing. -/
theorem lastOrAdd_eq (name field : Value) :
    lastOrAdd name field = Effect.run (fun _ found =>
      match found with
      | some fields => (lastOf fields).map (·, some fields)
      | none => .ok (field, some [field])) name := by
  rw [lastOrAdd, lastField_eq]
  apply ifMissing_present_eq
  · intro fields key
    exact lastOf_map_ne_missing fields key _
  · intro container key slot found
    rw [bind_apply, setLast_eq, Effect.run_of_ok slot, found]
    rfl

/-! ## Steps that replace all fields -/

/-- A name has a slot when its key can be made and has a digest. -/
theorem slot_eq_ok_iff (profile : Profile) (name key : Value) :
    profile.slot name = .ok key ↔ profile.key name = .ok key ∧ requireDigest key = .ok () := by
  unfold Profile.slot
  cases profile.key name with
  | error error => simp [Except.bind]
  | ok made =>
    simp only [Except.bind, Except.ok.injEq]
    constructor
    · intro looked
      cases digest : requireDigest made with
      | error error => simp [digest, Except.map] at looked
      | ok _ =>
        simp only [digest, Except.map, Except.ok.injEq] at looked
        subst looked
        exact ⟨rfl, digest⟩
    · rintro ⟨rfl, digest⟩
      simp only [digest, Except.map]

theorem keyFor_apply (name : Value) (container : Container) :
    keyFor name container = (container.profile.key name, container) := by
  rw [keyFor, bind_apply_of_ok (current_apply container), compute_apply]

private theorem discard_apply {key : Value} (digest : requireDigest key = .ok ())
    (container : Container) :
    discard key container = (.ok (), container.assign key none) := by
  rw [discard, bind_apply_of_ok (current_apply container)]
  cases empty : container.fields.entries with
  | nil =>
    have absent : container.fields.find? key = none := by simp [MultiMap.find?, empty]
    rw [← absent, assign_find?]
    rfl
  | cons entry rest =>
    simp only [List.isEmpty_cons, Bool.false_eq_true, ↓reduceIte, bind_apply, compute_apply, digest]
    rfl

theorem removeHeader_apply {container : Container} {name key : Value}
    (slot : container.profile.slot name = .ok key) :
    removeHeader name container = (.ok (), container.assign key none) := by
  obtain ⟨made, digest⟩ := (slot_eq_ok_iff ..).mp slot
  rw [removeHeader, bind_apply, keyFor_apply, made]
  exact discard_apply digest container

/-- The fields that a value is gone through for, each turned into bytes. -/
def byteFields (fields : Value) : Except Error (List Value) :=
  (fields.iterate.bind (List.mapM Value.bytes)).map (List.map .octets)

/-- Replacing the fields of a name checks that they are bytes before anything changes. -/
theorem replaceFields_apply {container : Container} {name key : Value}
    (slot : container.profile.slot name = .ok key) (fields : Value) :
    replaceFields name fields container =
      container.leave key ((byteFields fields).map fun fields => ((), Effect.settled fields)) := by
  obtain ⟨made, digest⟩ := (slot_eq_ok_iff ..).mp slot
  rw [replaceFields, bind_apply, compute_apply, byteFields]
  cases fields.iterate with
  | error error => rfl
  | ok items =>
    simp only [bind_apply, compute_apply, Except.bind]
    cases items.mapM Value.bytes with
    | error error => rfl
    | ok data =>
      simp only [keyFor_apply, made]
      cases data with
      | nil => exact discard_apply digest container
      | cons first rest =>
        simp only [List.isEmpty_cons, Bool.false_eq_true, ↓reduceIte, bind_apply, compute_apply,
          digest]
        rfl

/-- Storing a value encodes it first, so a value that is refused changes nothing. -/
theorem setValue_apply {container : Container} {identity key : Value}
    (slot : container.profile.slot identity = .ok key) (value : Value) :
    setValue identity value container =
      container.leave key ((encoded identity value).map fun data => ((), some [.octets data])) := by
  obtain ⟨made, digest⟩ := (slot_eq_ok_iff ..).mp slot
  rw [setValue, bind_apply, keyFor_apply, made]
  simp only [bind_apply, compute_apply, digest]
  cases encoded identity value <;> rfl

/-- A value is stored under a key that can be looked up. -/
theorem exists_slot_of_setValue {container : Container} {identity value : Value}
    (ok : (setValue identity value container).1 = .ok ()) :
    ∃ key, container.profile.slot identity = .ok key := by
  rw [setValue, bind_apply, keyFor_apply] at ok
  cases made : container.profile.key identity with
  | error error =>
    rw [made] at ok
    cases ok
  | ok key =>
    cases digest : requireDigest key with
    | ok _ => exact ⟨key, (slot_eq_ok_iff ..).mpr ⟨made, digest⟩⟩
    | error error =>
      simp only [made, bind_apply, compute_apply, digest] at ok
      cases data : encoded identity value <;> simp [data] at ok

end Container

end TypedHeaders
