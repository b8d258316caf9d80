import TypedHeaders.Proofs.Container.Copies
import TypedHeaders.Proofs.Container.Soundness
import TypedHeaders.Proofs.Container.TypedAccess

/-! # Operations on different names

An operation on a name neither sees nor touches the fields of other names. So two operations on names
with different keys can change places: each has the same result or fails with the same error, and the
fields under all names are the same in the end. Only the order of names that are new shows which
operation came first, and equality does not look at that order.
-/

namespace TypedHeaders.Container

section Commuting

variable {container : Container} {key other : Value}

/-- What is found under a key does not change with the fields under a key that is apart from it. -/
theorem Keyed.find?_assign (keyed : Keyed container.fields) (digest : requireDigest key = .ok ())
    (digest' : requireDigest other = .ok ()) (apart : (key == other) = false)
    (values : Option (List Value)) :
    (container.assign key values).fields.find? other = container.fields.find? other :=
  MultiMap.find?_assign_of_apart apart (keyed.apart digest digest' apart) values

private theorem agreesApart_assign_of_requireDigest (digest : requireDigest key = .ok ())
    (values : Option (List Value)) (container : Container) :
    AgreesApart key container (container.assign key values) :=
  ⟨rfl, rfl, MultiMap.erase_assign (beq_self_of_requireDigest digest) values _⟩

private theorem NameOperation.isSound_outcome {operation : NameOperation}
    (isSound : operation.IsSound) (sound : HoldsSound container.fields) (name key : Value) :
    ∀ field ∈ (operation.outcome container name key).2.getD [], field.IsSound :=
  operation.leavesSound isSound (sound.find? key) container.profile name key

/-- An operation on a name has the same outcome after other fields were left under a key that is apart
from the key of the name. -/
theorem perform_on_assign {name : Value} (keyed : Keyed container.fields)
    (slot : container.profile.slot name = .ok key) (digest : requireDigest other = .ok ())
    (apart : (other == key) = false) (operation : NameOperation) (values : Option (List Value)) :
    perform (operation.on name) (container.assign other values) =
      ((operation.outcome container name key).1,
        (container.assign other values).assign key (operation.outcome container name key).2) := by
  -- An assignment changes the fields and not the profile, so the name has the same key as before.
  have slotAfter : (container.assign other values).profile.slot name = .ok key := slot
  have digest' := ((slot_eq_ok_iff ..).mp slot).2
  rw [perform_on_eq slotAfter, NameOperation.outcome, NameOperation.outcome,
    keyed.find?_assign digest digest' apart, assign_profile]

end Commuting

/-- Operations on two names with different keys have the same results in either order, and each leaves
all other names as they are, in their order. In the end the fields under all names are the same, and
the two containers are equal. -/
theorem perform_on_comm {container : Container} (keyed : Keyed container.fields)
    {name name' key key' : Value} (slot : container.profile.slot name = .ok key)
    (slot' : container.profile.slot name' = .ok key') (apart : (key == key') = false)
    (first second : NameOperation) :
    let afterFirst := perform (first.on name) container
    let afterSecond := perform (second.on name') container
    let inOrder := perform (second.on name') afterFirst.2
    let swapped := perform (first.on name) afterSecond.2
    swapped.1 = afterFirst.1 ∧ inOrder.1 = afterSecond.1 ∧
      inOrder.2.profile = swapped.2.profile ∧ inOrder.2.attached = swapped.2.attached ∧
      inOrder.2.fields.entries.Perm swapped.2.fields.entries ∧
      (HoldsSound container.fields → first.IsSound → second.IsSound →
        perform (.equals (.container swapped.2)) inOrder.2 = (.ok (.boolean true), inOrder.2)) ∧
      AgreesApart key container afterFirst.2 ∧ AgreesApart key' container afterSecond.2 := by
  have digest := ((slot_eq_ok_iff ..).mp slot).2
  have digest' := ((slot_eq_ok_iff ..).mp slot').2
  have apart' : (key' == key) = false := by rwa [beq_comm_of_requireDigest digest' digest]
  have soundValues (sound : HoldsSound container.fields) (isSound : first.IsSound) :=
    NameOperation.isSound_outcome isSound sound name key
  have soundValues' (sound : HoldsSound container.fields) (isSound : second.IsSound) :=
    NameOperation.isSound_outcome isSound sound name' key'
  -- Neither operation changes what the other finds, so both orders make the same two assignments.
  simp only [perform_on_eq slot, perform_on_eq slot', perform_on_assign keyed slot digest' apart',
    perform_on_assign keyed slot' digest apart]
  generalize (first.outcome container name key).2 = values at soundValues ⊢
  generalize (second.outcome container name' key').2 = values' at soundValues' ⊢
  have perm : ((container.assign key values).assign key' values').fields.entries.Perm
      ((container.assign key' values').assign key values).fields.entries :=
    MultiMap.assign_assign_perm apart' apart (keyed.apart digest digest' apart) values' values
  refine ⟨trivial, trivial, rfl, rfl, perm, fun sound isSound isSound' => ?_,
    agreesApart_assign_of_requireDigest digest _ _, agreesApart_assign_of_requireDigest digest' _ _⟩
  have keyedEnd : Keyed ((container.assign key values).assign key' values').fields :=
    (keyed.assign digest values).assign digest' values'
  have soundEnd : HoldsSound ((container.assign key values).assign key' values').fields :=
    (sound.assign key (soundValues sound isSound)).assign key' (soundValues' sound isSound')
  have equal := MultiMap.equal_of_perm perm
    ((keyed.distinct.assign key' values').assign key values) fun entry member =>
      ⟨beq_self_of_requireDigest (keyedEnd.digests _ (List.mem_map_of_mem member)),
        soundEnd.beq_self entry member⟩
  rw [perform_equals, equal]

theorem perform_on_comm_new_names :
    let container := after [.addField (.text "x") (.octets [49]),
      .assignFields (.text "X") (.slice .null .null .null) (.list [])] (.new .common)
    let inOrder := after [.addField (.text "Via") (.list [.null]),
      .setValue (.codec .age) (.integer 5)] container
    let swapped := after [.setValue (.codec .age) (.integer 5),
      .addField (.text "Via") (.list [.null])] container
    inOrder.fields.keys = [.text "x", .text "via", .text "age"] ∧
      swapped.fields.keys = [.text "x", .text "age", .text "via"] ∧
      perform (.equals (.container swapped)) inOrder = (.ok (.boolean true), inOrder) := by
  intro container inOrder swapped
  have sound : HoldsSound container.fields := by
    intro entry member
    obtain rfl := List.mem_singleton.mp member
    exact List.forall_mem_nil _
  have slot : container.profile.slot (.text "Via") = .ok (.text "via") := rfl
  have slot' : container.profile.slot (.codec .age) = .ok (.text "age") := rfl
  obtain ⟨-, -, -, -, -, equal, -⟩ := perform_on_comm (Keyed.empty.after _) slot slot' (by simp)
    (.addField (.list [.null])) (.setValue (.integer 5))
  exact ⟨rfl, rfl, equal sound ⟨trivial, trivial⟩ trivial⟩

end TypedHeaders.Container
