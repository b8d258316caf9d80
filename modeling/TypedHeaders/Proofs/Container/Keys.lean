import TypedHeaders.Proofs.Container.Moves
import TypedHeaders.Proofs.Container.Names

/-! # The keys of headers

Headers look names up in lower case, so all their keys are text without capital letters, or bytes.
What a table moves never lands on a capital letter, which is why the key of a name in lower case is
that name.
-/

namespace TypedHeaders.Container

/-- Keys that names can have in headers. -/
def IsHeaderKey (key : Value) : Prop :=
  (∃ name : String, key = .text name ∧ Text.HasNoCapital name.toList) ∨ ∃ data, key = .octets data

theorem IsHeaderKey.isName {key : Value} (isKey : IsHeaderKey key) : key.IsName := by
  rcases isKey with ⟨name, rfl, -⟩ | ⟨data, rfl⟩
  · exact .inl ⟨name, rfl⟩
  · exact .inr ⟨data, rfl⟩

/-- Fields under keys that names can have in headers, each key once. -/
structure KeyedAsHeaders (fields : Fields) : Prop where
  keys : ∀ key ∈ fields.keys, IsHeaderKey key
  distinct : fields.Distinct

theorem keyedAsHeaders_empty : KeyedAsHeaders .empty where
  keys key member := by cases member
  distinct := .empty

/-- Assigning under a header key keeps the keys sound and apart. -/
theorem KeyedAsHeaders.assign {fields : Fields} (keyed : KeyedAsHeaders fields) {key : Value}
    (isKey : IsHeaderKey key) (values : Option (List Value)) :
    KeyedAsHeaders (fields.assign key values) where
  keys := MultiMap.forall_keys_assign keyed.keys isKey values
  distinct := keyed.distinct.assign key values

namespace KeyedAsHeaders

variable {fields fields' : Fields}

theorem isName (keyed : KeyedAsHeaders fields) {key : Value} (member : key ∈ fields.keys) :
    key.IsName := (keyed.keys key member).isName

/-- An entry is what is found under its key. -/
theorem mem_entries_iff (keyed : KeyedAsHeaders fields) {key : Value} (isName : key.IsName)
    (values : List Value) : (key, values) ∈ fields.entries ↔ fields.find? key = some values := by
  constructor
  · intro member
    exact keyed.distinct.find?_eq member isName.beq_self
  · intro found
    obtain ⟨⟨key', values'⟩, member, same, rfl⟩ := MultiMap.exists_mem_of_find? found
    have isName' : key'.IsName := keyed.isName (List.mem_map_of_mem member)
    rwa [(Value.beq_iff_of_isName isName' isName).mp same] at member

theorem nodup_keys (keyed : KeyedAsHeaders fields) : fields.keys.Nodup :=
  keyed.distinct.imp_of_mem fun member member' apart =>
    (Value.beq_eq_false_iff_of_isName (keyed.isName member) (keyed.isName member')).mp apart

/-- Entries under sound keys are all different. -/
theorem nodup_entries (keyed : KeyedAsHeaders fields) : fields.entries.Nodup :=
  List.Pairwise.of_map Prod.fst (fun _ _ apart same => apart (congrArg Prod.fst same))
    keyed.nodup_keys

/-- Fields differ in nothing but the order of their names if the same is found under each name. -/
theorem perm_iff (keyed : KeyedAsHeaders fields) (keyed' : KeyedAsHeaders fields') :
    fields.entries.Perm fields'.entries ↔
      ∀ key : Value, key.IsName → fields.find? key = fields'.find? key := by
  constructor
  · intro perm key isName
    refine Option.ext fun values => ?_
    rw [← keyed.mem_entries_iff isName, perm.mem_iff, keyed'.mem_entries_iff isName]
  · intro same
    refine (List.perm_ext_iff_of_nodup keyed.nodup_entries keyed'.nodup_entries).mpr ?_
    rintro ⟨key, values⟩
    constructor
    · intro member
      have isName : key.IsName := keyed.isName (List.mem_map_of_mem member)
      rwa [keyed'.mem_entries_iff isName, ← same key isName, ← keyed.mem_entries_iff isName]
    · intro member
      have isName : key.IsName := keyed'.isName (List.mem_map_of_mem member)
      rwa [keyed.mem_entries_iff isName, same key isName, ← keyed'.mem_entries_iff isName]

end KeyedAsHeaders

private theorem isHeaderKey_of_lower {name key : Value} (lower : Name.lower name = .ok key)
    (digest : requireDigest key = .ok ()) : IsHeaderKey key := by
  unfold Name.lower at lower
  split at lower
  · rename_i s
    cases lower
    refine .inl ⟨_, rfl, ?_⟩
    rw [String.toList_ofList]
    exact Text.lower_hasNoCapital s.toList
  · cases lower
    exact .inr ⟨_, rfl⟩
  · cases lower
    cases digest
  · cases lower

/-- The keys that a headers profile looks up are header keys. -/
theorem isHeaderKey_of_slot {typeName : String} {attributes : List (String × Option Codec)}
    {name key : Value} (slot : (Profile.headers typeName attributes).slot name = .ok key) :
    IsHeaderKey key := by
  obtain ⟨made, digest⟩ := (slot_eq_ok_iff ..).mp slot
  simp only [Profile.key] at made
  split at made
  · split at made
    · exact isHeaderKey_of_lower made digest
    · cases made
  · exact isHeaderKey_of_lower made digest

/-- What becomes of headers by operations are headers, under keys that names can have. -/
theorem KeyedAsHeaders.moves {typeName : String} {attributes : List (String × Option Codec)}
    {start container : Container} (isHeaders : start.profile = .headers typeName attributes)
    (keyed : KeyedAsHeaders start.fields) (moves : Moves start container) :
    container.profile = .headers typeName attributes ∧ KeyedAsHeaders container.fields := by
  induction moves with
  | refl => exact ⟨isHeaders, keyed⟩
  | assign _ slot fields ih =>
    rw [ih.1] at slot
    exact ⟨ih.1, ih.2.assign (isHeaderKey_of_slot slot) fields⟩
  | clear _ ih => exact ⟨ih.1, keyedAsHeaders_empty⟩
  | attach _ attached ih => exact ih

private theorem copied_of_isHeaderKey {key : Value} (isKey : IsHeaderKey key) (place : Nat) :
    key.copied place = key := by
  rcases isKey with ⟨name, rfl, -⟩ | ⟨data, rfl⟩ <;> rfl

/-- Copying moves the values to another place and keeps the keys sound. -/
theorem KeyedAsHeaders.copied {fields : Fields} (keyed : KeyedAsHeaders fields) (place : Nat) :
    KeyedAsHeaders (fields.map (Value.copied place) (Value.copied place)) := by
  have same : (fields.map (Value.copied place) (Value.copied place)).keys = fields.keys := by
    simp only [MultiMap.keys, MultiMap.map, List.map_map]
    exact List.map_congr_left fun entry member =>
      copied_of_isHeaderKey (keyed.keys _ (List.mem_map_of_mem member)) place
  exact ⟨same ▸ keyed.keys, by rw [MultiMap.Distinct, same]; exact keyed.distinct⟩

end TypedHeaders.Container
