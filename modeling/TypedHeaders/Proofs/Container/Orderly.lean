import TypedHeaders.Proofs.Container.Keys
import TypedHeaders.Proofs.Container.Soundness

/-! # Containers in order

A container is in order if each name in it has a field and is looked up under itself. Whatever is done
to a plain container, or to headers with ASCII names, it is in order as long as no name is left without
a field. Then the plain view shows the last field of every name, and what is found under a name is found
under every name that equals it.
-/

namespace TypedHeaders

open Container in
/-- The key under which a name is looked up. A plain container takes every name that has a digest as it
is, and headers take ASCII names and the identities of headers with such a name. -/
inductive Profile.Resolves : Profile → Value → Value → Prop
  | plain {name : Value} (digest : requireDigest name = .ok ()) : Resolves .plain name name
  | headers {typeName : String} {attributes : List (String × Option Codec)} {name : Value}
      {key : String} (names : (Profile.headers typeName attributes).Names name key) :
      Resolves (.headers typeName attributes) name (.text key)

namespace Profile.Resolves

variable {profile : Profile} {name key : Value}

/-- A name that resolves has its key for a slot. -/
theorem slot (resolves : profile.Resolves name key) : profile.slot name = .ok key := by
  cases resolves with
  | plain digest => exact (Container.slot_eq_ok_iff ..).mpr ⟨rfl, digest⟩
  | headers names => exact names.slot

/-- A key is looked up under itself. -/
theorem self (resolves : profile.Resolves name key) : profile.Resolves key key := by
  cases resolves with
  | plain digest => exact .plain digest
  | headers names => exact .headers names.key

theorem digest (resolves : profile.Resolves name key) : Container.requireDigest key = .ok () :=
  ((Container.slot_eq_ok_iff ..).mp resolves.slot).2

end Profile.Resolves

namespace Container

variable {α β γ : Type} {container : Container}

/-- A container in which each name has a field and is looked up under itself. -/
structure Orderly (container : Container) : Prop where
  keys : ∀ key ∈ container.fields.keys, container.profile.Resolves key key
  distinct : container.fields.Distinct
  filled : Filled container.fields

/-- Every container that comes of operations is in order if none of its names is without a field and
the names of headers are ASCII. -/
theorem orderly_after (profile : Profile) (operations : List Operation)
    (filled : Filled (after operations (.new profile)).fields)
    (ascii : profile ≠ .plain → ∀ key ∈ (after operations (.new profile)).fields.keys,
      ∃ name : String, key = .text name ∧ Text.IsAscii name.toList) :
    (after operations (.new profile)).Orderly := by
  have moves := moves_after operations (.new profile)
  have keyed : Keyed (after operations (.new profile)).fields := Keyed.empty.after operations
  refine ⟨fun key member => ?_, keyed.distinct, filled⟩
  cases profile with
  | plain =>
    rw [moves.profile]
    exact .plain (keyed.digests key member)
  | headers typeName attributes =>
    have start : KeyedAsHeaders (new (.headers typeName attributes)).fields := keyedAsHeaders_empty
    obtain ⟨isHeaders, keyedAsHeaders⟩ := start.moves rfl moves
    obtain ⟨name, rfl, isAscii⟩ := ascii (fun same => by cases same) key member
    rw [isHeaders]
    rcases keyedAsHeaders.keys _ member with ⟨name', same, small⟩ | ⟨data, same⟩
    · cases same
      exact .headers (.of_hasNoCapital isAscii small)
    · cases same

/-- A container that comes of operations is in order if its names are ASCII text and each has a field. -/
theorem orderly_after_of_names (profile : Profile) (operations : List Operation)
    (lists : List (String × List Value))
    (entries : (after operations (.new profile)).fields.entries =
      lists.map fun entry => (.text entry.1, entry.2))
    (filled : ∀ entry ∈ lists, entry.2 ≠ [])
    (ascii : ∀ entry ∈ lists, Text.IsAscii entry.1.toList) :
    (after operations (.new profile)).Orderly := by
  apply orderly_after profile operations
  · rw [Filled, entries]
    exact List.forall_mem_map.mpr filled
  · rw [MultiMap.keys, entries, List.map_map]
    exact fun _ => List.forall_mem_map.mpr fun entry member => ⟨entry.1, rfl, ascii entry member⟩

namespace Orderly

theorem keyed (orderly : container.Orderly) : Keyed container.fields where
  digests key member := (orderly.keys key member).digest
  distinct := orderly.distinct

/-- An entry of an orderly container is found under its key. -/
theorem find?_eq (orderly : container.Orderly) {entry : Value × List Value}
    (member : entry ∈ container.fields.entries) :
    container.fields.find? entry.1 = some entry.2 :=
  orderly.distinct.find?_eq member
    (beq_self_of_requireDigest (orderly.keys _ (List.mem_map_of_mem member)).digest)

/-- Assigning fields under a key that resolves keeps the container orderly. -/
theorem assign (orderly : container.Orderly) {key : Value}
    (resolves : container.profile.Resolves key key) {values : Option (List Value)}
    (filled : values ≠ some []) : (container.assign key values).Orderly where
  keys := MultiMap.forall_keys_assign orderly.keys resolves values
  distinct := orderly.distinct.assign key values
  filled := orderly.filled.assign key filled

end Orderly

/-! ## The plain view -/

def lastItems (container : Container) : List (Value × Value) :=
  container.fields.entries.map fun entry => (entry.1, entry.2.getLastD .null)

/-- A step that only reads, made for each of some items, gives a result for each. -/
theorem mapM_map_apply {items : List α} {onItem : α → β} {step : β → Action γ} {result : α → γ}
    (each : ∀ item ∈ items, step (onItem item) container = (.ok (result item), container)) :
    (items.map onItem).mapM step container = (.ok (items.map result), container) := by
  induction items with
  | nil => rfl
  | cons item items ih =>
    obtain ⟨here, rest⟩ := List.forall_mem_cons.mp each
    rw [List.map_cons, List.mapM_cons, bind_apply_of_ok here, bind_apply_of_ok (ih rest)]
    rfl

theorem Orderly.lastField_apply (orderly : container.Orderly) {entry : Value × List Value}
    (member : entry ∈ container.fields.entries) :
    lastField entry.1 container = (.ok (entry.2.getLastD .null), container) := by
  have filled := orderly.filled entry member
  rw [lastField_eq, Effect.run_of_ok (orderly.keys _ (List.mem_map_of_mem member)).slot]
  simp only [orderly.find?_eq member, Effect.present, lastOf_of_ne_nil filled]
  rw [← orderly.find?_eq member, List.getLastD_eq_getLast?, List.getLast?_eq_some_getLast filled]
  exact container.leave_found entry.1 (.ok _)

private theorem Orderly.lastPairs_apply (orderly : container.Orderly) :
    lastPairs container = (.ok container.lastItems, container) := by
  rw [lastPairs, bind_apply_of_ok (current_apply container)]
  apply mapM_map_apply
  intro entry member
  rw [bind_apply_of_ok (orderly.lastField_apply member)]
  rfl

/-- An orderly container lists its last pairs without failing. -/
theorem Orderly.perform_lastPairs (orderly : container.Orderly) :
    perform .lastPairs container =
      (.ok (.list (container.lastItems.map pairValue)), container) := by
  rw [perform, Operation.action, bind_apply_of_ok orderly.lastPairs_apply]
  rfl

/-! ## Names that are equal -/

/-- Of two names that are equal one can stand for the other beside any third. -/
theorem beq_congr_of_requireDigest {a b c : Value} (digest : requireDigest a = .ok ())
    (digest' : requireDigest b = .ok ()) (digest'' : requireDigest c = .ok ())
    (same : (a == b) = true) : (c == a) = (c == b) := by
  obtain ⟨x, seen⟩ := exists_essence?_of_requireDigest digest
  obtain ⟨y, seen'⟩ := exists_essence?_of_requireDigest digest'
  obtain ⟨z, seen''⟩ := exists_essence?_of_requireDigest digest''
  have eq : x = y := (Value.equal_iff seen seen').mp same
  rw [Bool.eq_iff_iff]
  exact (Value.equal_iff seen'' seen).trans (eq ▸ (Value.equal_iff seen'' seen').symm)

/-- Equal keys find the same fields. -/
theorem Keyed.find?_congr {fields : Fields} (keyed : Keyed fields) {key other : Value}
    (digest : requireDigest key = .ok ()) (digest' : requireDigest other = .ok ())
    (same : (key == other) = true) : fields.find? key = fields.find? other := by
  have under : fields.entries.filter (·.1 == key) = fields.entries.filter (·.1 == other) :=
    List.filter_congr fun entry member =>
      beq_congr_of_requireDigest digest digest'
        (keyed.digests _ (List.mem_map_of_mem member)) same
  rw [MultiMap.find?, MultiMap.find?, ← List.head?_filter, under, List.head?_filter]

end Container

end TypedHeaders
