import TypedHeaders.Proofs.Container.OnName
import TypedHeaders.Proofs.Container.Presence
import TypedHeaders.Proofs.Value.Equality

/-! # Keys that can be looked up and fields that equal themselves

The keys of a container have digests, whatever was done to it, and so equality is an equivalence on
them: what equals one of two keys that are apart does not equal the other. A field equals itself unless
it is a dictionary that has a key twice, and an operation on a name stores only what it is given, what
is there already, or bytes.
-/

namespace TypedHeaders.Container

/-! ## Keys that can be looked up -/

/-- A key with a digest has an essence, by which keys are compared. -/
theorem exists_essence?_of_requireDigest {key : Value} (digest : requireDigest key = .ok ()) :
    ∃ x, key.essence? = some x := by
  unfold requireDigest Value.hashed at digest
  cases parts : key.digest with
  | error type => simp [parts, Except.mapError, Except.map] at digest
  | ok parts' => exact Value.exists_essence? parts

/-- A key with a digest equals itself. -/
theorem beq_self_of_requireDigest {key : Value} (digest : requireDigest key = .ok ()) :
    (key == key) = true := by
  obtain ⟨x, seen⟩ := exists_essence?_of_requireDigest digest
  exact (Value.equal_iff seen seen).mpr rfl

/-- Keys with digests can be compared in either order. -/
theorem beq_comm_of_requireDigest {key other : Value} (digest : requireDigest key = .ok ())
    (digest' : requireDigest other = .ok ()) : (key == other) = (other == key) := by
  obtain ⟨x, seen⟩ := exists_essence?_of_requireDigest digest
  obtain ⟨y, seen'⟩ := exists_essence?_of_requireDigest digest'
  rw [Bool.eq_iff_iff]
  exact (Value.equal_iff seen seen').trans (eq_comm.trans (Value.equal_iff seen' seen).symm)

/-- Fields under keys that can be looked up, each key once. -/
structure Keyed (fields : Fields) : Prop where
  digests : ∀ key ∈ fields.keys, requireDigest key = .ok ()
  distinct : fields.Distinct

namespace Keyed

theorem empty : Keyed .empty where
  digests key member := by cases member
  distinct := .empty

/-- Assigning under a key with a digest keeps the keys sound. -/
theorem assign {fields : Fields} (keyed : Keyed fields) {key : Value}
    (digest : requireDigest key = .ok ()) (values : Option (List Value)) :
    Keyed (fields.assign key values) where
  digests := MultiMap.forall_keys_assign keyed.digests digest values
  distinct := keyed.distinct.assign key values

/-- Sound keys stay sound along every run of moves. -/
theorem moves {start container : Container} (keyed : Keyed start.fields)
    (moves : Moves start container) : Keyed container.fields := by
  induction moves with
  | refl => exact keyed
  | assign _ slot fields ih => exact ih.assign ((slot_eq_ok_iff ..).mp slot).2 fields
  | clear => exact .empty
  | attach _ attached ih => exact ih

/-- Whatever is done to a container, its keys can be looked up. -/
theorem after {container : Container} (keyed : Keyed container.fields)
    (operations : List Operation) : Keyed (after operations container).fields :=
  keyed.moves (moves_after operations container)

/-- A key that equals one of two keys that are apart does not equal the other. -/
theorem apart {fields : Fields} (keyed : Keyed fields) {key other : Value}
    (digest : requireDigest key = .ok ()) (digest' : requireDigest other = .ok ())
    (apart : (key == other) = false) :
    ∀ a ∈ fields.keys, (a == key) = true → (a == other) = false := by
  intro a member same
  obtain ⟨x, seen⟩ := exists_essence?_of_requireDigest digest
  obtain ⟨y, seen'⟩ := exists_essence?_of_requireDigest digest'
  obtain ⟨z, seen''⟩ := exists_essence?_of_requireDigest (keyed.digests a member)
  rw [← Bool.not_eq_true] at apart ⊢
  exact fun same' => apart (Value.equal_of_equal_left seen seen' seen'' same same')

end Keyed

/-! ## Fields that equal themselves -/

/-- Fields of which none is a dictionary with a key that it has twice. -/
def HoldsSound (fields : Fields) : Prop :=
  ∀ entry ∈ fields.entries, ∀ field ∈ entry.2, field.IsSound

/-- The values that an operation may store are sound. -/
def NameOperation.IsSound : NameOperation → Prop
  | .assignFields _ value => value.IsSound
  | .addField field | .lastOrAdd field | .setLast field => field.IsSound
  | _ => True

theorem HoldsSound.beq_self {fields : Fields} (sound : HoldsSound fields) :
    ∀ entry ∈ fields.entries, (entry.2 == entry.2) = true := by
  intro entry member
  have every := sound entry member
  generalize entry.2 = values at every
  induction values with
  | nil => rfl
  | cons value values ih =>
    obtain ⟨here, rest⟩ := List.forall_mem_cons.mp every
    have same : (value == value) = true := Value.equal_self here
    rw [List.cons_beq_cons, same, ih rest, Bool.and_self]

theorem HoldsSound.find? {fields : Fields} (sound : HoldsSound fields) (key : Value) :
    ∀ field ∈ (fields.find? key).getD [], field.IsSound := by
  cases found : fields.find? key with
  | none => exact List.forall_mem_nil _
  | some values =>
    obtain ⟨entry, member, -, rfl⟩ := MultiMap.exists_mem_of_find? found
    exact sound entry member

/-- Sound fields assigned under any key leave sound fields everywhere. -/
theorem HoldsSound.assign {fields : Fields} (sound : HoldsSound fields) (key : Value)
    {values : Option (List Value)} (sound' : ∀ field ∈ values.getD [], field.IsSound) :
    HoldsSound (fields.assign key values) := by
  intro entry member
  rcases MultiMap.mem_entries_assign member with old | ⟨rfl, -⟩
  · exact sound entry old
  · exact sound'

/-- That all fields a step leaves are sound. -/
def LeavesSound (found : Option (List Value))
    (made : Except Error (Value × Option (List Value))) : Prop :=
  ∀ field ∈ (left found made).getD [], field.IsSound

namespace LeavesSound

theorem map_found {found : Option (List Value)} (sound : ∀ field ∈ found.getD [], field.IsSound)
    (outcome : Except Error Value) : LeavesSound found (outcome.map (·, found)) := by
  cases outcome <;> exact sound

theorem settled {found : Option (List Value)} {fields : List Value}
    (sound : ∀ field ∈ fields, field.IsSound) (result : Value) :
    LeavesSound found (.ok (result, Effect.settled fields)) := by
  simp only [LeavesSound, left, Effect.settled]
  split
  · exact List.forall_mem_nil _
  · exact sound

/-- A step on a present name leaves sound fields when it does so for the fields found. -/
theorem present {found : Option (List Value)} (sound : ∀ field ∈ found.getD [], field.IsSound)
    {step : List Value → Except Error (Value × Option (List Value))} (key : Value)
    (leaves : ∀ fields, (∀ field ∈ (some fields).getD [], field.IsSound) →
      LeavesSound (some fields) (step fields)) :
    LeavesSound found (Effect.present step key found) := by
  cases found with
  | none => exact sound
  | some fields => exact leaves fields sound

theorem onHeaders {found : Option (List Value)} (sound : ∀ field ∈ found.getD [], field.IsSound)
    {effect : Effect Value} {key : Value} (leaves : LeavesSound found (effect key found))
    (profile : Profile) (method : String) :
    LeavesSound found (effect.onHeaders profile method key found) := by
  cases profile with
  | plain => exact sound
  | headers => exact leaves

end LeavesSound

private theorem isSound_of_fillers {spaced : Bool} {value : Value} (sound : value.IsSound)
    {items : List Value} (filling : fillers spaced value = .ok items) :
    ∀ item ∈ items, item.IsSound := by
  unfold fillers at filling
  split at filling
  · rename_i yields
    cases filling
    exact sound.items yields
  · cases filling

private theorem isSound_of_assigned {selector : Selector} {value : Value}
    {fields fields' : List Value}
    (sound : ∀ field ∈ fields, field.IsSound) (soundValue : value.IsSound)
    (made : assigned selector value fields = .ok fields') : ∀ field ∈ fields', field.IsSound := by
  intro field member
  cases selector with
  | index i =>
    simp only [assigned] at made
    split at made
    · cases made
      rcases List.mem_or_eq_of_mem_set member with old | rfl
      · exact sound field old
      · exact soundValue
    · cases made
  | series start stop step =>
    simp only [assigned] at made
    split at made
    · -- A splice puts in the new items as they are, and keeps those around them.
      cases filling : fillers false value with
      | error error => simp [filling, bind, Except.bind] at made
      | ok items =>
        simp only [filling, bind, Except.bind] at made
        cases made
        rcases mem_of_mem_spliceAt member with new | old
        · exact isSound_of_fillers soundValue filling field new
        · exact sound field old
    · cases filling : fillers true value with
      | error error => simp [filling, bind, Except.bind] at made
      | ok items =>
        simp only [filling, bind, Except.bind] at made
        split at made
        · cases made
        · cases made
          rcases mem_of_mem_fillAt member with new | old
          · exact isSound_of_fillers soundValue filling field new
          · exact sound field old

private theorem mem_of_mem_remaining {selector : Selector} {fields fields' : List Value}
    (made : remaining selector fields = .ok fields') {field : Value} (member : field ∈ fields') :
    field ∈ fields := by
  unfold remaining at made
  split at made
  · split at made
    · cases made
      exact List.mem_of_mem_eraseIdx member
    · cases made
  · cases made
    exact mem_of_mem_itemsOff member

private theorem isSound_dropLast {fields : List Value} (sound : ∀ field ∈ fields, field.IsSound) :
    ∀ field ∈ fields.dropLast, field.IsSound :=
  fun field member => sound field (List.dropLast_subset fields member)

namespace LeavesSound

variable {found : Option (List Value)} {profile : Profile} {name key : Value}

theorem valueOf (sound : ∀ field ∈ found.getD [], field.IsSound) (default : Value) :
    LeavesSound found ((NameOperation.valueOf default).effect profile name key found) := by
  simp only [NameOperation.effect, NameOperation.valueEffect]
  split
  · exact map_found sound _
  · cases found with
    | none => exact sound
    | some fields => exact map_found sound _

theorem setValue (sound : ∀ field ∈ found.getD [], field.IsSound) (value : Value) :
    LeavesSound found ((NameOperation.setValue value).effect profile name key found) := by
  refine onHeaders sound ?_ _ _
  cases encoded name value with
  | error error => exact sound
  | ok data => exact List.forall_mem_singleton.mpr trivial

theorem replaceFields (sound : ∀ field ∈ found.getD [], field.IsSound) (given : Value) :
    LeavesSound found ((NameOperation.replaceFields given).effect profile name key found) := by
  refine onHeaders sound ?_ _ _
  simp only [byteFields]
  cases given.iterate.bind (List.mapM Value.bytes) with
  | error error => exact sound
  | ok data =>
    have octets : ∀ field ∈ data.map Value.octets, field.IsSound :=
      List.forall_mem_map.mpr fun _ _ => trivial
    exact settled octets _

theorem assignFields (sound : ∀ field ∈ found.getD [], field.IsSound) (index : Value)
    {value : Value} (soundValue : value.IsSound) :
    LeavesSound found ((NameOperation.assignFields index value).effect profile name key found) := by
  refine present sound key fun fields sound => ?_
  cases Selector.ofValue .list index with
  | error error => exact sound
  | ok selector =>
    simp only [Except.bind]
    cases made : assigned selector value fields with
    | error error => exact sound
    | ok fields' => exact isSound_of_assigned sound soundValue made

theorem eraseFields (sound : ∀ field ∈ found.getD [], field.IsSound) (index : Value) :
    LeavesSound found ((NameOperation.eraseFields index).effect profile name key found) := by
  refine present sound key fun fields sound => ?_
  cases Selector.ofValue .list index with
  | error error => exact sound
  | ok selector =>
    simp only [Except.bind]
    cases made : remaining selector fields with
    | error error => exact sound
    | ok fields' =>
      exact settled (fun field member => sound field (mem_of_mem_remaining made member)) _

theorem takeLast (sound : ∀ field ∈ found.getD [], field.IsSound) (default : Option Value) :
    LeavesSound found ((NameOperation.takeLast default).effect profile name key found) := by
  simp only [NameOperation.effect]
  cases found with
  | none => cases default <;> exact sound
  | some fields =>
    simp only
    cases lastOf fields with
    | error error => exact sound
    | ok field => exact settled (isSound_dropLast sound) _

theorem lastOrAdd (sound : ∀ field ∈ found.getD [], field.IsSound) {field : Value}
    (soundField : field.IsSound) :
    LeavesSound found ((NameOperation.lastOrAdd field).effect profile name key found) := by
  cases found with
  | none => exact List.forall_mem_singleton.mpr soundField
  | some fields => exact map_found sound _

theorem setLast (sound : ∀ field ∈ found.getD [], field.IsSound) {field : Value}
    (soundField : field.IsSound) :
    LeavesSound found ((NameOperation.setLast field).effect profile name key found) := by
  have added {fields : List Value} (sound : ∀ field ∈ fields, field.IsSound) :
      ∀ field' ∈ fields.dropLast ++ [field], field'.IsSound :=
    List.forall_mem_append.mpr ⟨isSound_dropLast sound, List.forall_mem_singleton.mpr soundField⟩
  rcases found with _ | _ | ⟨first, rest⟩
  · exact added sound
  · exact sound
  · exact added sound

theorem eraseLast (sound : ∀ field ∈ found.getD [], field.IsSound) :
    LeavesSound found (NameOperation.eraseLast.effect profile name key found) := by
  refine present sound key fun fields sound => ?_
  split
  · exact sound
  · exact settled (isSound_dropLast sound) _

end LeavesSound

/-- Where sound fields are found and sound values are stored, sound fields are left. -/
theorem NameOperation.leavesSound {operation : NameOperation} (isSound : operation.IsSound)
    {found : Option (List Value)} (sound : ∀ field ∈ found.getD [], field.IsSound)
    (profile : Profile) (name key : Value) :
    LeavesSound found (operation.effect profile name key found) := by
  cases operation with
  | valueOf default => exact .valueOf sound default
  | setValue value => exact .setValue sound value
  | removeHeader =>
    refine .onHeaders sound ?_ _ _
    exact List.forall_mem_nil _
  | fieldsOrNone => exact .onHeaders sound (.map_found sound _) _ _
  | replaceFields given => exact .replaceFields sound given
  | presentFields => exact .present sound key fun fields sound => sound
  | eraseName => exact .present sound key fun fields sound => List.forall_mem_nil _
  | countFields => exact .present sound key fun fields sound => sound
  | selectFields index => exact .present sound key fun fields sound => .map_found sound _
  | assignFields index value => exact .assignFields sound index isSound
  | eraseFields index => exact .eraseFields sound index
  | addField field =>
    exact List.forall_mem_append.mpr ⟨sound, List.forall_mem_singleton.mpr isSound⟩
  | takeLast default => exact .takeLast sound default
  | lastOrAdd field => exact .lastOrAdd sound isSound
  | lastField => exact .present sound key fun fields sound => .map_found sound _
  | setLast field => exact .setLast sound isSound
  | eraseLast => exact .eraseLast sound
  | hasName => exact sound

end TypedHeaders.Container
