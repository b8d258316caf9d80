import TypedHeaders.Proofs.Container.Presence
import TypedHeaders.Proofs.Container.Writing
import TypedHeaders.Proofs.Session

/-! # Headers made of the same fields

Headers of bytes hold a list of byte strings under each of their names. Adding these fields to empty
headers, one by one in the order in which they are listed, gives headers that hold the same lists and
so are equal, with their names in order. A deep copy takes the fields over as they are.
-/

namespace TypedHeaders

namespace Container

/-! ## Headers of bytes as lists -/

namespace HoldsBytes

variable {container : Container} {typeName : String} {attributes : List (String × Option Codec)}

/-- Headers of bytes in which no name is without fields hold the lists under their names. -/
theorem refines (holds : container.HoldsBytes) (filled : Filled container.fields)
    (isHeaders : container.profile = .headers typeName attributes)
    (keyed : KeyedAsHeaders container.fields) :
    Refines (.headers typeName attributes) container fun name => container.fieldsOf (.text name) where
  ofProfile := isHeaders
  names key member := by
    obtain ⟨entry, held, rfl⟩ := List.mem_map.mp member
    obtain ⟨name, eq, ascii⟩ := holds.names entry held
    rcases keyed.keys _ member with ⟨name', eq', small⟩ | ⟨data, eq'⟩
    · cases eq.symm.trans eq'
      exact ⟨name, eq, .of_hasNoCapital ascii small⟩
    · cases eq.symm.trans eq'
  distinct := keyed.distinct
  found name := filled.find?_eq (.text name)

end HoldsBytes

/-! ## The same fields once more -/

private theorem beq_self_of_octets {fields : List Value}
    (octets : ∀ field ∈ fields, ∃ data, field = .octets data) : (fields == fields) = true := by
  have isName : ∀ field ∈ fields, field.IsName := fun field member => .inr (octets field member)
  exact (Value.beq_iff_of_forall (fun _ _ => Value.beq_iff_of_isName) isName isName).mpr rfl

/-- Containers that hold the same lists have the same entries, in some order. -/
theorem entries_perm_of_refines {profile : Profile} {a b : Container} {lists : Lists}
    (refines : Refines profile a lists) (refines' : Refines profile b lists) :
    a.fields.entries.Perm b.fields.entries := by
  obtain ⟨names, distinct, filled, entries⟩ := refines.exists_entries
  obtain ⟨names', distinct', filled', entries'⟩ := refines'.exists_entries
  have perm : names.Perm names' :=
    (List.perm_ext_iff_of_nodup distinct distinct').mpr fun name =>
      (filled name).trans (filled' name).symm
  rw [entries, entries']
  exact perm.map _

/-- Containers that hold the same lists of byte strings are equal, in whatever order their names came
in. -/
theorem equal_of_refines {profile : Profile} {a b : Container} {lists : Lists}
    (refines : Refines profile a lists) (refines' : Refines profile b lists)
    (octets : ∀ name, ∀ field ∈ lists name, ∃ data, field = .octets data) :
    a.fields.equal b.fields = true := by
  obtain ⟨names, -, -, entries⟩ := refines.exists_entries
  refine MultiMap.equal_of_perm (entries_perm_of_refines refines refines') refines'.distinct ?_
  intro entry member
  rw [entries] at member
  obtain ⟨name, -, rfl⟩ := List.mem_map.mp member
  exact ⟨(Value.isName_text name).beq_self, beq_self_of_octets (octets name)⟩

theorem perform_equals (container other : Container) :
    perform (.equals (.container other)) container =
      (.ok (.boolean (container.fields.equal other.fields)), container) := rfl

/-- Adding fields one by one adds each of them at the end of the list under its name. -/
theorem Refines.addFields {profile : Profile} {container : Container} {lists : Lists}
    (refines : Refines profile container lists) (pairs : List (String × Octets))
    (names : ∀ pair ∈ pairs, profile.Names (.text pair.1) pair.1) :
    Refines profile
      (after (pairs.map fun pair => .addField (.text pair.1) (.octets pair.2)) container)
      fun name => lists name ++ (pairs.filter (·.1 = name)).map fun pair => .octets pair.2 := by
  induction pairs generalizing container lists with
  | nil => simpa [after] using refines
  | cons pair pairs ih =>
    obtain ⟨here, rest⟩ := List.forall_mem_cons.mp names
    have isOnLists : Operation.IsOnLists profile (.addField (.text pair.1) (.octets pair.2)) :=
      ⟨_, _, rfl, _, here⟩
    have refines' := ih (refines.assign here (lists pair.1 ++ [.octets pair.2])) rest
    have added : after ((pair :: pairs).map fun pair => .addField (.text pair.1) (.octets pair.2))
        container = after (pairs.map fun pair => .addField (.text pair.1) (.octets pair.2))
          (container.assign (.text pair.1)
            (Effect.settled (lists pair.1 ++ [.octets pair.2]))) := by
      rw [List.map_cons, after, List.foldl_cons, perform_of_onList refines rfl here isOnLists]
      rfl
    rw [added]
    refine cast (congrArg _ ?_) refines'
    funext name
    by_cases same : name = pair.1
    · simp [Lists.set, same]
    · have apart : ¬ pair.1 = name := fun eq => same eq.symm
      simp [Lists.set, same, apart]

/-! ## Adding fields in order -/

private theorem addField_apply {container : Container} {name key : Value}
    (slot : container.profile.slot name = .ok key) (field : Value) :
    addField name field container =
      (.ok (), container.assign key (some (container.fieldsOf key ++ [field]))) := by
  rw [addField_eq, Effect.run_of_ok slot]
  rfl

private theorem after_addField {container : Container} {pair : String × Octets}
    (names : container.profile.Names (.text pair.1) pair.1) (operations : List Operation) :
    after (.addField (.text pair.1) (.octets pair.2) :: operations) container =
      after operations (container.assign (.text pair.1)
        (some (container.fieldsOf (.text pair.1) ++ [.octets pair.2]))) := by
  rw [after, List.foldl_cons, perform, Operation.action, silently_apply, addField_apply names.slot]
  rfl

/-- Fields under names that can be looked up are added without a failure. -/
theorem forM_addField_apply {container : Container} {pairs : List (String × Octets)}
    (names : ∀ pair ∈ pairs, container.profile.Names (.text pair.1) pair.1) :
    (pairs.map fun pair => (Value.text pair.1, Value.octets pair.2)).forM
        (fun pair => addField pair.1 pair.2) container =
      (.ok (), after (pairs.map fun pair => .addField (.text pair.1) (.octets pair.2)) container) := by
  induction pairs generalizing container with
  | nil => rfl
  | cons pair pairs ih =>
    obtain ⟨here, rest⟩ := List.forall_mem_cons.mp names
    rw [List.map_cons, List.map_cons, after_addField here]
    change (addField (.text pair.1) (.octets pair.2) >>= fun _ => _) container = _
    rw [bind_apply_of_ok (addField_apply here.slot _)]
    exact ih rest

/-- Adding fields in the order of their names brings the names in order. -/
theorem exists_ordered_keys {container : Container} {pairs : List (String × Octets)}
    (names : ∀ pair ∈ pairs, container.profile.Names (.text pair.1) pair.1)
    (ordered : pairs.Pairwise fun a b => a.1 ≤ b.1) {before : List String}
    (keys : container.fields.keys = before.map .text) (sorted : before.Pairwise (· ≤ ·))
    (below : ∀ name ∈ before, ∀ pair ∈ pairs, name ≤ pair.1) :
    ∃ names : List String, (after (pairs.map fun pair => .addField (.text pair.1) (.octets pair.2))
      container).fields.keys = names.map .text ∧ names.Pairwise (· ≤ ·) := by
  induction pairs generalizing container before with
  | nil => exact ⟨before, keys, sorted⟩
  | cons pair pairs ih =>
    obtain ⟨here, rest⟩ := List.forall_mem_cons.mp names
    obtain ⟨least, ordered⟩ := List.pairwise_cons.mp ordered
    have below' : ∀ name ∈ before, ∀ later ∈ pairs, name ≤ later.1 := fun name member later held =>
      below name member later (List.mem_cons_of_mem _ held)
    rw [List.map_cons, after_addField here]
    have keys' := MultiMap.keys_put (.text pair.1)
      (container.fieldsOf (.text pair.1) ++ [.octets pair.2]) container.fields
    -- A name that is there keeps its place, and a new one is no less than all before it.
    split at keys'
    · exact ih rest ordered (keys'.trans keys) sorted below'
    · have longer : (container.fields.put (.text pair.1)
          (container.fieldsOf (.text pair.1) ++ [.octets pair.2])).keys =
            (before ++ [pair.1]).map .text := by
        rw [keys', keys, List.map_append]
        rfl
      refine ih rest ordered longer ?_ ?_
      · refine List.pairwise_append.mpr ⟨sorted, List.pairwise_singleton .., ?_⟩
        intro name member last isLast
        rw [List.mem_singleton.mp isLast]
        exact below name member pair (List.mem_cons_self ..)
      · intro name member later held
        rcases List.mem_append.mp member with old | new
        · exact below' name old later held
        · rw [List.mem_singleton.mp new]
          exact least later held

/-! ## Copies -/

private theorem relisted_of_listed {container : Container} {pairs : List (String × Octets)}
    (listed : container.listed = .ok (pairs.map fun pair => (.text pair.1, .octets pair.2)))
    (names : ∀ pair ∈ pairs, container.profile.Names (.text pair.1) pair.1) :
    Session.relisted container =
      .ok (after (pairs.map fun pair => .addField (.text pair.1) (.octets pair.2))
        (.new container.profile)) := by
  have ofNew : ∀ pair ∈ pairs, (new container.profile).profile.Names (.text pair.1) pair.1 := names
  rw [Session.relisted, listed, Except.bind]
  simp only [forM_addField_apply ofNew]
  rfl

namespace HoldsBytes

variable {container : Container} {typeName : String} {attributes : List (String × Option Codec)}

/-- Adding all fields again gives headers that hold the same lists, with their names in order. -/
theorem relisted (holds : container.HoldsBytes) (filled : Filled container.fields)
    (isHeaders : container.profile = .headers typeName attributes)
    (keyed : KeyedAsHeaders container.fields) :
    ∃ copy, Session.relisted container = .ok copy ∧
      (Refines (.headers typeName attributes) copy fun name => container.fieldsOf (.text name)) ∧
      ∃ names : List String, copy.fields.keys = names.map .text ∧ names.Pairwise (· ≤ ·) := by
  obtain ⟨names, data, octets, distinct, -⟩ := holds.holdsOctets keyed.distinct
  have refines := holds.refines filled isHeaders keyed
  have named : ∀ pair ∈ sortedPairs names data,
      container.profile.Names (.text pair.1) pair.1 := by
    intro pair member
    have key : Value.text pair.1 ∈ container.fields.keys := by
      simpa [octets.keys] using (mem_sortedPairs member).1
    obtain ⟨_, same, names⟩ := refines.names _ key
    cases same
    exact isHeaders ▸ names
  refine ⟨_, relisted_of_listed (octets.listed (by simp [isHeaders])) named, ?_, ?_⟩
  · have copied := (refines_new container.profile).addFields (sortedPairs names data) named
    simp only [List.nil_append, ← octets.fieldsOf_eq distinct, isHeaders] at copied ⊢
    exact copied
  · have noKeys : (new container.profile).fields.keys = [].map Value.text := rfl
    exact exists_ordered_keys named (sortedPairs_pairwise names data) noKeys .nil (by simp)

/-- A deep copy has the same fields, because names and bytes are the same when built anew. -/
theorem copied (holds : container.HoldsBytes) (place : Nat) :
    (container.copied place).fields = container.fields := by
  have each : ∀ entry ∈ container.fields.entries,
      (entry.1.copied place, entry.2.map (Value.copied place)) = entry := by
    rintro ⟨key, fields⟩ member
    obtain ⟨name, rfl, -⟩ : ∃ name : String, key = .text name ∧ _ := holds.names _ member
    have same : ∀ field ∈ fields, field.copied place = field := by
      intro field held
      obtain ⟨data, rfl⟩ := holds.fields _ member field held
      rfl
    rw [List.map_congr_left same, List.map_id']
    rfl
  rw [Container.copied, MultiMap.map, List.map_congr_left each, List.map_id']

end HoldsBytes

end Container

end TypedHeaders
