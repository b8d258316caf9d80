import TypedHeaders.Proofs.Container.Names
import TypedHeaders.Proofs.Container.OnName

/-! # A container is a list under every name

Apart from the order of names, a container is a total map from names to lists, where a name that is
missing has the empty list. Every operation on a name is an operation on a plain list, and no other
name takes part in it. The invariant is that no name that is present has the empty list: then the
container never tells an empty list from a missing name, and each operation has to keep it so.

Filling a series of positions may leave a name with no field and is left out.
-/

namespace TypedHeaders.Container

/-! ## Plain lists -/

abbrev Lists := String → List Value

def Lists.set (lists : Lists) (name : String) (fields : List Value) : Lists :=
  fun other => if other = name then fields else lists other

/-- A step on the plain list under a name: a result and the list afterwards, or a failure. -/
abbrev ListStep := String → List Value → Except Error (Value × List Value)

/-- A step on a list that has to hold something, with its last item given along. -/
def ListStep.filled (step : List Value → Value → Except Error (Value × List Value)) : ListStep :=
  fun key fields =>
    match fields.getLast? with
    | some last => step fields last
    | none => .error (.missing (some (.text key)))

/-- The name that an operation is about, and the step that it is on the plain list there. -/
def Operation.onList? : Operation → Option (Value × ListStep)
  | .lastField name => some (name, .filled fun fields last => .ok (last, fields))
  | .setLast name field => some (name, fun _ fields => .ok (.null, fields.dropLast ++ [field]))
  | .eraseLast name => some (name, .filled fun fields _ => .ok (.null, fields.dropLast))
  | .addField name field => some (name, fun _ fields => .ok (.null, fields ++ [field]))
  | .selectFields name index => some (name, .filled fun fields _ =>
      ((Selector.ofValue .list index).bind (selected · fields)).map (·, fields))
  | .assignFields name index value => some (name, .filled fun fields _ =>
      ((Selector.ofValue .list index).bind (assigned · value fields)).map (.null, ·))
  | .eraseFields name index => some (name, .filled fun fields _ =>
      ((Selector.ofValue .list index).bind (remaining · fields)).map (.null, ·))
  | .eraseName name => some (name, .filled fun _ _ => .ok (.null, []))
  | .replaceFields name fields => some (name, fun _ _ => (byteFields fields).map (.null, ·))
  | .removeHeader name => some (name, fun _ _ => .ok (.null, []))
  | .takeLast name default => some (name, fun key fields =>
      match fields.getLast?.or default with
      | some field => .ok (field, fields.dropLast)
      | none => .error (.missing (some (.text key))))
  | .lastOrAdd name field => some (name, fun _ fields =>
      .ok (fields.getLastD field, if fields = [] then [field] else fields))
  | .hasName name => some (name, fun _ fields => .ok (.boolean (!fields.isEmpty), fields))
  | .presentFields name => some (name, .filled fun fields _ => .ok (.tuple fields, fields))
  | .fieldsOrNone name => some (name, fun _ fields => .ok (.tuple fields, fields))
  | .countFields name => some (name, .filled fun fields _ => .ok (.integer fields.length, fields))
  | _ => none

/-- The step on the lists under all names that an operation is, with its result. A failure leaves
all lists as they are, and an operation on a name leaves those of other names. -/
inductive Lists.Step (profile : Profile) : Operation → Lists → Except Error Value → Lists → Prop
  | done {operation : Operation} {lists : Lists} {name result : Value} {step : ListStep}
      {key : String} {fields : List Value} (onList : operation.onList? = some (name, step))
      (names : profile.Names name key) (ok : step key (lists key) = .ok (result, fields)) :
      Step profile operation lists (.ok result) (lists.set key fields)
  | failed {operation : Operation} {lists : Lists} {name : Value} {step : ListStep}
      {key : String} {error : Error} (onList : operation.onList? = some (name, step))
      (names : profile.Names name key) (failed : step key (lists key) = .error error) :
      Step profile operation lists (.error error) lists
  | clear {lists : Lists} : Step profile .clear lists (.ok .null) fun _ => []
  | size {lists : Lists} {names : List String} (distinct : names.Nodup)
      (filled : ∀ name, name ∈ names ↔ lists name ≠ []) :
      Step profile .size lists (.ok (.integer names.length)) lists
  | takeFromFirst {lists : Lists} {name : String} {fields : List Value} {last : Value}
      (filled : lists name = fields ++ [last]) :
      Step profile .takeFromFirst lists (.ok (pairValue (.text name, last))) (lists.set name fields)
  | takeFromNone {lists : Lists} (empty : ∀ name, lists name = []) :
      Step profile .takeFromFirst lists (.error (.missing none)) lists

/-- The operations that are steps on lists: those on a name that the container is asked for, save
filling a series of positions, and those on the whole. A plain container has no operations of
headers. -/
def Operation.IsOnLists (profile : Profile) : Operation → Prop
  | .clear | .size | .takeFromFirst => True
  | .assignFields name index _ =>
    (∃ key, profile.Names name key) ∧ ∀ start stop step, index ≠ .slice start stop step
  | .replaceFields name _ | .removeHeader name | .fieldsOrNone name =>
    profile ≠ .plain ∧ ∃ key, profile.Names name key
  | operation => ∃ name step, operation.onList? = some (name, step) ∧ ∃ key, profile.Names name key

/-- What a container shows of the lists under its names. -/
structure Shows (profile : Profile) (container : Container) (lists : Lists) : Prop where
  hasName : ∀ name key, profile.Names name key →
    (perform (.hasName name) container).1 = .ok (.boolean (!(lists key).isEmpty))
  size : ∃ names : List String, names.Nodup ∧ (∀ name, name ∈ names ↔ lists name ≠ []) ∧
    (perform .size container).1 = .ok (.integer names.length)
  presentFields : ∀ name key, profile.Names name key →
    (perform (.presentFields name) container).1 =
      if lists key = [] then .error (.missing (some (.text key))) else .ok (.tuple (lists key))
  fieldsOrNone : profile ≠ .plain → ∀ name key, profile.Names name key →
    (perform (.fieldsOrNone name) container).1 = .ok (.tuple (lists key))
  countFields : ∀ name key, profile.Names name key →
    (perform (.countFields name) container).1 =
      if lists key = [] then .error (.missing (some (.text key)))
      else .ok (.integer (lists key).length)

/-! ## The operations as steps on lists -/

/-- The container holds exactly the lists: it has the names with a list that is not empty, each
once and under its key, and finds that list there. -/
structure Refines (profile : Profile) (container : Container) (lists : Lists) : Prop where
  ofProfile : container.profile = profile
  names : ∀ key ∈ container.fields.keys, ∃ name, key = .text name ∧ profile.Names (.text name) name
  distinct : container.fields.Distinct
  found : ∀ name, container.fields.find? (.text name) = Effect.settled (lists name)

private theorem settled_cases (fields : List Value) :
    fields = [] ∨ ∃ last, fields ≠ [] ∧ fields.getLast? = some last ∧ lastOf fields = .ok last ∧
      Effect.settled fields = some fields := by
  cases last : fields.getLast? with
  | none => exact .inl (List.getLast?_eq_none_iff.mp last)
  | some field =>
    have some : fields ≠ [] := by
      rintro rfl
      cases last
    exact .inr ⟨field, some, rfl, by simp only [lastOf, last], if_neg some⟩

@[simp]
private theorem settled_concat (fields : List Value) (field : Value) :
    Effect.settled (fields ++ [field]) = some (fields ++ [field]) := if_neg (by simp)

private theorem assigned_of_not_slice {index : Value} (value : Value) {fields : List Value}
    (single : ∀ start stop step, index ≠ .slice start stop step) (filled : fields ≠ []) :
    ((Selector.ofValue .list index).bind (assigned · value fields)).map Effect.settled =
      ((Selector.ofValue .list index).bind (assigned · value fields)).map some := by
  have isIndex : ∀ selector, Selector.ofValue .list index = .ok selector →
      ∃ i, selector = .index i := by
    intro selector chosen
    unfold Selector.ofValue at chosen
    split at chosen
    · exact (single _ _ _ rfl).elim
    · split at chosen
      · split at chosen
        · cases chosen
        · cases chosen
          exact ⟨_, rfl⟩
      · cases chosen
  cases chosen : Selector.ofValue .list index with
  | error error => rfl
  | ok selector =>
    obtain ⟨i, rfl⟩ := isIndex selector chosen
    simp only [Except.bind, assigned]
    cases Selector.position? fields.length i with
    | none => rfl
    | some position => simp [Except.map, Effect.settled, filled]

/-- What a step leaves of a plain list: nothing at all in place of an empty one. -/
private def kept (made : Value × List Value) : Value × Option (List Value) :=
  (made.1, Effect.settled made.2)

private theorem present_agrees {made : List Value → Except Error (Value × Option (List Value))}
    (step : List Value → Value → Except Error (Value × List Value))
    (same : ∀ fields last, fields ≠ [] → lastOf fields = .ok last →
      Effect.settled fields = some fields → made fields = (step fields last).map kept)
    (key : String) (fields : List Value) :
    Effect.present made (.text key) (Effect.settled fields) =
      (ListStep.filled step key fields).map kept := by
  rcases settled_cases fields with rfl | ⟨last, filled, isLast, lastOf, settled⟩
  · rfl
  · simp only [settled, Effect.present, ListStep.filled, isLast, same fields last filled lastOf]

private theorem Refines.effect_run {profile : Profile} {container : Container} {lists : Lists}
    {name : Value} {key : String} (refines : Refines profile container lists)
    (names : profile.Names name key) {α : Type} (effect : Effect α) :
    effect.run name container =
      container.leave (.text key) (effect (.text key) (Effect.settled (lists key))) := by
  have slot : container.profile.slot name = .ok (.text key) := refines.ofProfile ▸ names.slot
  rw [Effect.run_of_ok slot, refines.found key]

section Agreement

variable {name : Value} {key : String} {fields : List Value}

/-- Reading a list that has to be there leaves it as it is. -/
private theorem reading_agrees (read : List Value → Except Error Value) :
    Effect.present (fun fields => (read fields).map (·, some fields)) (.text key)
        (Effect.settled fields) =
      (ListStep.filled (fun fields _ => (read fields).map (·, fields)) key fields).map kept := by
  apply present_agrees
  intro fields last _ _ settled
  cases read fields <;> simp only [Except.map, kept, settled]

/-- Changing a list that has to be there takes the name away with the last item. -/
private theorem changing_agrees (change : List Value → Except Error (List Value)) :
    Effect.present (fun fields => (change fields).map fun fields => (.null, Effect.settled fields))
        (.text key) (Effect.settled fields) =
      (ListStep.filled (fun fields _ => (change fields).map (.null, ·)) key fields).map kept := by
  apply present_agrees
  intro fields last _ _ _
  cases change fields <;> rfl

/-- Filling a position of a list that has to be there leaves something there. -/
private theorem assigning_agrees {index : Value} (value : Value)
    (single : ∀ start stop step, index ≠ .slice start stop step) :
    Effect.present (fun fields =>
        ((Selector.ofValue .list index).bind (assigned · value fields)).map fun fields =>
          (.null, some fields)) (.text key) (Effect.settled fields) =
      (ListStep.filled (fun fields _ =>
        ((Selector.ofValue .list index).bind (assigned · value fields)).map (.null, ·))
          key fields).map kept := by
  apply present_agrees
  intro fields last filled _ _
  have same := assigned_of_not_slice value single filled
  cases made : (Selector.ofValue .list index).bind (assigned · value fields) with
  | error error => rfl
  | ok fields' =>
    rw [made] at same
    simp only [Except.map, Except.ok.injEq] at same
    simp only [Except.map, kept, same]

private theorem lastField_agrees :
    Effect.present (fun fields => (lastOf fields).map (·, some fields)) (.text key)
        (Effect.settled fields) =
      (ListStep.filled (fun fields last => .ok (last, fields)) key fields).map kept := by
  apply present_agrees
  intro fields last _ lastOf settled
  simp only [lastOf, Except.map, kept, settled]

private theorem eraseLast_agrees :
    Effect.present (fun fields =>
        if fields = [] then .error (.outOfBounds .writing)
        else .ok (.null, Effect.settled fields.dropLast)) (.text key) (Effect.settled fields) =
      (ListStep.filled (fun fields _ => .ok (.null, fields.dropLast)) key fields).map kept := by
  apply present_agrees
  intro fields last filled _ _
  rw [if_neg filled]
  rfl

variable {profile : Profile}

private theorem setLast_agrees (field : Value) :
    (NameOperation.setLast field).effect profile name (.text key) (Effect.settled fields) =
      .ok (kept (.null, fields.dropLast ++ [field])) := by
  rw [kept, settled_concat]
  cases fields <;> rfl

private theorem addField_agrees (field : Value) :
    (NameOperation.addField field).effect profile name (.text key) (Effect.settled fields) =
      .ok (kept (.null, fields ++ [field])) := by
  rw [kept, settled_concat]
  cases fields <;> rfl

private theorem takeLast_agrees (default : Option Value) :
    (NameOperation.takeLast default).effect profile name (.text key) (Effect.settled fields) =
      Except.map kept (match fields.getLast?.or default with
        | some field => .ok (field, fields.dropLast)
        | none => .error (.missing (some (.text key)))) := by
  rcases settled_cases fields with rfl | ⟨last, -, isLast, lastOf, settled⟩
  · cases default <;> rfl
  · simp only [NameOperation.effect, settled, isLast, lastOf, Option.some_or, Except.map, kept]

private theorem lastOrAdd_agrees (field : Value) :
    (NameOperation.lastOrAdd field).effect profile name (.text key) (Effect.settled fields) =
      .ok (kept (fields.getLastD field, if fields = [] then [field] else fields)) := by
  rcases settled_cases fields with rfl | ⟨last, filled, isLast, lastOf, settled⟩
  · rfl
  · simp only [NameOperation.effect, settled, lastOf, List.getLastD_eq_getLast?, isLast, filled,
      Except.map, kept, Option.getD_some, if_false]

private theorem hasName_agrees :
    NameOperation.hasName.effect profile name (.text key) (Effect.settled fields) =
      .ok (kept (.boolean (!fields.isEmpty), fields)) := by
  cases fields <;> rfl

private theorem fieldsOrNone_agrees (headers : profile ≠ .plain) :
    NameOperation.fieldsOrNone.effect profile name (.text key) (Effect.settled fields) =
      .ok (kept (.tuple fields, fields)) := by
  rw [NameOperation.effect, Effect.onHeaders_of_headers headers]
  cases fields <;> rfl

private theorem removeHeader_agrees (headers : profile ≠ .plain) :
    NameOperation.removeHeader.effect profile name (.text key) (Effect.settled fields) =
      .ok (kept (.null, [])) := by
  rw [NameOperation.effect, Effect.onHeaders_of_headers headers]
  rfl

private theorem replaceFields_agrees (headers : profile ≠ .plain) (given : Value) :
    (NameOperation.replaceFields given).effect profile name (.text key) (Effect.settled fields) =
      ((byteFields given).map (.null, ·)).map kept := by
  rw [NameOperation.effect, Effect.onHeaders_of_headers headers]
  cases byteFields given <;> rfl

end Agreement

/-- An operation on a name is the step that it is on the plain list there. -/
theorem perform_of_onList {profile : Profile} {container : Container} {lists : Lists}
    (refines : Refines profile container lists) {operation : Operation} {name : Value}
    {step : ListStep} {key : String} (onList : operation.onList? = some (name, step))
    (names : profile.Names name key) (isOnLists : operation.IsOnLists profile) :
    perform operation container = container.leave (.text key) ((step key (lists key)).map kept) := by
  have slot : container.profile.slot name = .ok (.text key) := refines.ofProfile ▸ names.slot
  have performed (operation : NameOperation)
      (agrees : operation.effect profile name (.text key) (Effect.settled (lists key)) =
        (step key (lists key)).map kept) : perform (operation.on name) container =
          container.leave (.text key) ((step key (lists key)).map kept) := by
    rw [perform_on slot, refines.ofProfile, refines.found, agrees]
  cases operation <;> cases onList
  case lastField => exact performed .lastField lastField_agrees
  case setLast field => exact performed (.setLast field) (setLast_agrees field)
  case eraseLast => exact performed .eraseLast eraseLast_agrees
  case addField field => exact performed (.addField field) (addField_agrees field)
  case selectFields index => exact performed (.selectFields index) (reading_agrees _)
  case assignFields index value =>
    exact performed (.assignFields index value) (assigning_agrees value isOnLists.2)
  case eraseFields index => exact performed (.eraseFields index) (changing_agrees _)
  case eraseName => exact performed .eraseName (changing_agrees fun _ => .ok [])
  case replaceFields given =>
    exact performed (.replaceFields given) (replaceFields_agrees isOnLists.1 given)
  case removeHeader => exact performed .removeHeader (removeHeader_agrees isOnLists.1)
  case takeLast default => exact performed (.takeLast default) (takeLast_agrees default)
  case lastOrAdd field => exact performed (.lastOrAdd field) (lastOrAdd_agrees field)
  case hasName => exact performed .hasName hasName_agrees
  case presentFields =>
    exact performed .presentFields (reading_agrees fun fields => .ok (.tuple fields))
  case fieldsOrNone => exact performed .fieldsOrNone (fieldsOrNone_agrees isOnLists.1)
  case countFields =>
    exact performed .countFields (reading_agrees fun fields => .ok (.integer fields.length))

/-! ## One step -/

/-- A new container refines the empty lists. -/
theorem refines_new (profile : Profile) : Refines profile (.new profile) fun _ => [] where
  ofProfile := rfl
  names key member := by cases member
  distinct := .empty
  found _ := rfl

namespace Refines

variable {profile : Profile} {container : Container} {lists : Lists}

/-- A container that refines lists has names for its keys. -/
theorem isName (refines : Refines profile container lists) :
    ∀ key ∈ container.fields.keys, key.IsName := by
  intro key member
  obtain ⟨name, rfl, -⟩ := refines.names key member
  exact Value.isName_text name

/-- Settling a list under a name refines setting it there. -/
theorem assign (refines : Refines profile container lists) {name : String}
    (names : profile.Names (.text name) name) (fields : List Value) :
    Refines profile (container.assign (.text name) (Effect.settled fields))
      (lists.set name fields) where
  ofProfile := refines.ofProfile
  names key member := by
    obtain ⟨entry, held, rfl⟩ := List.mem_map.mp member
    rcases MultiMap.mem_entries_assign held with old | ⟨-, new | ⟨old, member, same⟩⟩
    · exact refines.names _ (List.mem_map_of_mem old)
    · exact ⟨name, new, names⟩
    · rw [← same]
      exact refines.names _ (List.mem_map_of_mem member)
  distinct := refines.distinct.assign _ _
  found other := by
    by_cases same : other = name
    · rw [same, Lists.set, if_pos rfl]
      exact find?_assign_self (Value.isName_text name) _ _
    · have ne : Value.text other ≠ .text name := fun eq => same (Value.text.inj eq)
      rw [Lists.set, if_neg same, ← refines.found other]
      exact find?_assign_of_ne refines.isName (Value.isName_text _) (Value.isName_text _) ne _

/-- The keys are the names whose list is not empty. -/
theorem mem_keys_iff (refines : Refines profile container lists) (name : String) :
    Value.text name ∈ container.fields.keys ↔ lists name ≠ [] := by
  have found := refines.found name
  constructor
  · intro member empty
    rw [empty] at found
    have apart := (MultiMap.find?_eq_none_iff _ _).mp found _ member
    simp at apart
  · intro filled
    rw [Effect.settled, if_neg filled] at found
    obtain ⟨entry, member, same, -⟩ := MultiMap.exists_mem_of_find? found
    have key := List.mem_map_of_mem (f := Prod.fst) member
    rwa [(Value.beq_iff_of_isName (refines.isName _ key) (Value.isName_text name)).mp same] at key

/-- The names of the container as text, each once. -/
theorem exists_names (refines : Refines profile container lists) : ∃ names : List String,
    container.fields.keys = names.map .text ∧ names.Nodup ∧
      ∀ name, name ∈ names ↔ lists name ≠ [] := by
  obtain ⟨names, keys, -⟩ := exists_map_eq_of_forall_mem refines.names
  refine ⟨names, keys, nodup_of_keys refines.distinct keys, ?_⟩
  intro name
  rw [← refines.mem_keys_iff name, keys]
  simp

/-- The entries are the lists that are not empty, under their names. -/
theorem exists_entries (refines : Refines profile container lists) : ∃ names : List String,
    names.Nodup ∧ (∀ name, name ∈ names ↔ lists name ≠ []) ∧
      container.fields.entries = names.map fun name => (.text name, lists name) := by
  obtain ⟨names, keys, distinct, filled⟩ := refines.exists_names
  have same : ∀ key ∈ container.fields.keys, (key == key) = true := by
    simp [keys]
  refine ⟨names, distinct, filled, ?_⟩
  rw [refines.distinct.entries_eq same, keys, List.map_map]
  apply List.map_congr_left
  intro name member
  rw [Function.comp_apply, refines.found, Effect.settled, if_neg ((filled name).mp member),
    Option.getD_some]

end Refines

private theorem isOnLists_cases {profile : Profile} {operation : Operation}
    (isOnLists : operation.IsOnLists profile) :
    operation = .clear ∨ operation = .size ∨ operation = .takeFromFirst ∨
      ∃ name step, operation.onList? = some (name, step) ∧ ∃ key, profile.Names name key := by
  cases operation
  case clear => exact .inl rfl
  case size => exact .inr (.inl rfl)
  case takeFromFirst => exact .inr (.inr (.inl rfl))
  case assignFields => exact .inr (.inr (.inr ⟨_, _, rfl, isOnLists.1⟩))
  case replaceFields | removeHeader | fieldsOrNone =>
    exact .inr (.inr (.inr ⟨_, _, rfl, isOnLists.2⟩))
  all_goals exact .inr (.inr (.inr isOnLists))

private theorem perform_clear (container : Container) :
    perform .clear container = (.ok .null, { container with fields := .empty }) := rfl

private theorem perform_size (container : Container) :
    perform .size container = (.ok (.integer container.fields.size), container) := rfl

private theorem Refines.takeLast_of_concat {profile : Profile} {container : Container}
    {lists : Lists} (refines : Refines profile container lists) {name : String}
    (names : profile.Names (.text name) name) {fields : List Value} {last : Value}
    (concat : lists name = fields ++ [last]) :
    takeLast (.text name) container =
      (.ok last, container.assign (.text name) (Effect.settled fields)) := by
  rw [takeLast_eq, refines.effect_run names, concat, settled_concat]
  simp [Effect.present, lastOf, Except.map, leave]

/-- Either nothing is there to be taken, or some list that holds something loses its last item. -/
private theorem perform_takeFromFirst {profile : Profile} {container : Container} {lists : Lists}
    (refines : Refines profile container lists) :
    ((∀ name, lists name = []) ∧
        perform .takeFromFirst container = (.error (.missing none), container)) ∨
      ∃ name fields last, lists name = fields ++ [last] ∧ profile.Names (.text name) name ∧
        perform .takeFromFirst container = (.ok (pairValue (.text name, last)),
          container.assign (.text name) (Effect.settled fields)) := by
  obtain ⟨names, keys, -, filled⟩ := refines.exists_names
  rw [perform, Operation.action, map_apply, takeFromFirst,
    bind_apply_of_ok (current_apply container), keys]
  cases names with
  | nil =>
    refine .inl ⟨fun name => ?_, rfl⟩
    have absent := filled name
    simpa using absent
  | cons name names =>
    have some := (filled name).mp (List.mem_cons_self ..)
    obtain ⟨_, same, names'⟩ := refines.names (.text name) (by simp [keys])
    cases same
    rcases List.eq_nil_or_concat (lists name) with empty | ⟨fields, last, concat⟩
    · exact (some empty).elim
    · rw [List.concat_eq_append] at concat
      refine .inr ⟨name, fields, last, concat, names', ?_⟩
      simp only [List.map_cons, bind_apply_of_ok (refines.takeLast_of_concat names' concat)]
      rfl

/-- One operation is one step on the lists. -/
theorem Refines.step {profile : Profile} {container : Container} {lists : Lists}
    (refines : Refines profile container lists) {operation : Operation}
    (isOnLists : operation.IsOnLists profile) :
    ∃ lists', Lists.Step profile operation lists (perform operation container).1 lists' ∧
      Refines profile (perform operation container).2 lists' := by
  rcases isOnLists_cases isOnLists with rfl | rfl | rfl | ⟨name, step, onList, key, names⟩
  · refine ⟨_, .clear, ?_⟩
    rw [perform_clear]
    exact ⟨refines.ofProfile, fun key member => (List.not_mem_nil member).elim, .empty, fun _ => rfl⟩
  · obtain ⟨names, keys, distinct, filled⟩ := refines.exists_names
    have size : container.fields.size = names.length := by
      rw [MultiMap.size_eq, keys, List.length_map]
    rw [perform_size, size]
    exact ⟨lists, .size distinct filled, refines⟩
  · rcases perform_takeFromFirst refines with ⟨empty, run⟩ | ⟨name, fields, last, concat, names, run⟩
    · rw [run]
      exact ⟨lists, .takeFromNone empty, refines⟩
    · rw [run]
      exact ⟨_, .takeFromFirst concat, refines.assign names fields⟩
  · rw [perform_of_onList refines onList names isOnLists]
    cases made : step key (lists key) with
    | error error => exact ⟨lists, .failed onList names made, refines⟩
    | ok made => exact ⟨_, .done onList names made, refines.assign names.key _⟩

/-- An operation that fails changes nothing. -/
theorem Refines.eq_of_error {profile : Profile} {container : Container} {lists : Lists}
    (refines : Refines profile container lists) {operation : Operation}
    (isOnLists : operation.IsOnLists profile) {error : Error}
    (failed : (perform operation container).1 = .error error) :
    (perform operation container).2 = container := by
  rcases isOnLists_cases isOnLists with rfl | rfl | rfl | ⟨name, step, onList, key, names⟩
  · rw [perform_clear] at failed
    cases failed
  · rfl
  · rcases perform_takeFromFirst refines with ⟨-, run⟩ | ⟨name, fields, last, -, -, run⟩
    · rw [run]
    · rw [run] at failed
      cases failed
  · rw [perform_of_onList refines onList names isOnLists] at failed ⊢
    exact leave_eq_of_error failed

/-- Every reading operation shows the lists that the container refines. -/
theorem Refines.shows {profile : Profile} {container : Container} {lists : Lists}
    (refines : Refines profile container lists) : Shows profile container lists where
  hasName name key names := by
    have isOnLists : Operation.IsOnLists profile (.hasName name) := ⟨name, _, rfl, key, names⟩
    rw [perform_of_onList refines rfl names isOnLists]
    rfl
  size := by
    obtain ⟨names, keys, distinct, filled⟩ := refines.exists_names
    refine ⟨names, distinct, filled, ?_⟩
    rw [perform_size, MultiMap.size_eq, keys, List.length_map]
  presentFields name key names := by
    have isOnLists : Operation.IsOnLists profile (.presentFields name) := ⟨name, _, rfl, key, names⟩
    rw [perform_of_onList refines rfl names isOnLists]
    rcases settled_cases (lists key) with empty | ⟨last, filled, isLast, -⟩
    · rw [if_pos empty, empty]
      rfl
    · rw [if_neg filled, ListStep.filled, isLast]
      rfl
  fieldsOrNone headers name key names := by
    have isOnLists : Operation.IsOnLists profile (.fieldsOrNone name) := ⟨headers, key, names⟩
    rw [perform_of_onList refines rfl names isOnLists]
    rfl
  countFields name key names := by
    have isOnLists : Operation.IsOnLists profile (.countFields name) := ⟨name, _, rfl, key, names⟩
    rw [perform_of_onList refines rfl names isOnLists]
    rcases settled_cases (lists key) with empty | ⟨last, filled, isLast, -⟩
    · rw [if_pos empty, empty]
      rfl
    · rw [if_neg filled, ListStep.filled, isLast]
      rfl

/-! ## Runs -/

/-- The container after operations performed one after the other, whether or not they fail. -/
def after (operations : List Operation) (container : Container) : Container :=
  operations.foldl (fun container operation => (perform operation container).2) container

/-- A run of any length goes through lists that its containers refine, one step relation after
another. -/
theorem Refines.run {profile : Profile} {operations : List Operation}
    (isOnLists : ∀ operation ∈ operations, operation.IsOnLists profile) {container : Container}
    {lists : Lists} (refines : Refines profile container lists) :
    ∃ history : Nat → Lists, history 0 = lists ∧
      (∀ i, (inRun : i < operations.length) →
        Lists.Step profile operations[i] (history i)
          (perform operations[i] (after (operations.take i) container)).1 (history (i + 1))) ∧
      ∀ i ≤ operations.length, Refines profile (after (operations.take i) container) (history i) := by
  induction operations generalizing container lists with
  | nil =>
    refine ⟨fun _ => lists, rfl, fun i inRun => (Nat.not_lt_zero i inRun).elim, fun i _ => ?_⟩
    rw [List.take_nil]
    exact refines
  | cons operation rest ih =>
    obtain ⟨lists', step, refines'⟩ := refines.step (isOnLists operation (List.mem_cons_self ..))
    obtain ⟨history, rfl, steps, states⟩ :=
      ih (fun operation member => isOnLists operation (List.mem_cons_of_mem _ member)) refines'
    refine ⟨fun i => i.casesOn lists history, rfl, fun i inRun => ?_, fun i inRun => ?_⟩
    · cases i with
      | zero => exact step
      | succ i => exact steps i (Nat.lt_of_succ_lt_succ inRun)
    · cases i with
      | zero => exact refines
      | succ i => exact states i (Nat.le_of_succ_le_succ inRun)

/-- However long a container is used, there are lists under all names, empty at first, on which each
operation is the step of a plain list, with the same result, and which the container shows at every
point. An operation that fails leaves not only the lists but the whole container as it was. -/
theorem run_refines_lists (profile : Profile) (operations : List Operation)
    (isOnLists : ∀ operation ∈ operations, operation.IsOnLists profile) :
    ∃ history : Nat → Lists, (history 0 = fun _ => []) ∧
      (∀ i, (inRun : i < operations.length) →
        let before := after (operations.take i) (.new profile)
        Lists.Step profile operations[i] (history i) (perform operations[i] before).1
            (history (i + 1)) ∧
          ∀ error, (perform operations[i] before).1 = .error error →
            (perform operations[i] before).2 = before) ∧
      ∀ i ≤ operations.length,
        Shows profile (after (operations.take i) (.new profile)) (history i) := by
  obtain ⟨history, start, steps, states⟩ := (refines_new profile).run isOnLists
  refine ⟨history, start, fun i inRun => ⟨steps i inRun, fun error failed => ?_⟩,
    fun i inRun => (states i inRun).shows⟩
  exact (states i (Nat.le_of_lt inRun)).eq_of_error
    (isOnLists _ (List.getElem_mem inRun)) failed

theorem run_refines_lists_age : ∃ lists : Lists, lists "age" = [.octets [50]] ∧
    Shows .common (after [.addField (.text "Age") (.octets [49]),
      .addField (.codec .age) (.octets [50]), .eraseFields (.text "Age") (.integer 0)]
      (.new .common)) lists := by
  have text : Profile.Names .common (.text "Age") (Name.lowerAscii "Age") := .header (by decide)
  have identity : Profile.Names .common (.codec .age) (Name.lowerAscii "age") :=
    .identity rfl (by decide)
  obtain ⟨history, -, -, shows⟩ := run_refines_lists .common
    [.addField (.text "Age") (.octets [49]), .addField (.codec .age) (.octets [50]),
      .eraseFields (.text "Age") (.integer 0)] (by
    simp only [List.mem_cons, List.not_mem_nil, or_false, forall_eq_or_imp, forall_eq]
    exact ⟨⟨_, _, rfl, _, text⟩, ⟨_, _, rfl, _, identity⟩, ⟨_, _, rfl, _, text⟩⟩)
  have final := shows 3 (by decide)
  have read := final.fieldsOrNone (fun same => by cases same) _ _ text
  have shown : Value.tuple [.octets [50]] = .tuple (history 3 "age") := Except.ok.inj read
  exact ⟨history 3, (Value.tuple.inj shown).symm, final⟩

end TypedHeaders.Container
