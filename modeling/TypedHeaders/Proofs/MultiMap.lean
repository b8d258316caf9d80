import Mathlib.Logic.Basic
import TypedHeaders.MultiMap

/-! # Laws of multi-maps

Putting, erasing and settling all leave one key with given values or without any, so they are one
change, the assignment of what is to be found under a key. It affects no key that is apart from its
own, and assigning what is there already changes nothing.

Equality of keys need not be sharp, so the laws about other keys ask for keys that are apart from all
that equal the changed one.
-/

namespace TypedHeaders.MultiMap

variable {κ ν : Type} [BEq κ]

/-- The map in which a key has these values, or in which it is missing. -/
def assign (key : κ) : Option (List ν) → MultiMap κ ν → MultiMap κ ν
  | none => erase key
  | some values => put key values

/-- No key equals one that came before it. -/
def Distinct (map : MultiMap κ ν) : Prop := map.keys.Pairwise fun a b => (a == b) = false

@[simp]
theorem find?_empty (key : κ) : (empty : MultiMap κ ν).find? key = none := rfl

omit [BEq κ] in
@[simp]
theorem keys_empty : (empty : MultiMap κ ν).keys = [] := rfl

omit [BEq κ] in
theorem size_eq (map : MultiMap κ ν) : map.size = map.keys.length := by simp [size, keys]

/-- Settling a name is assigning it, where an empty list stands for its absence. -/
theorem settle_eq_assign (key : κ) (values : List ν) (map : MultiMap κ ν) :
    map.settle key values = map.assign key (if values = [] then none else some values) := by
  cases values <;> rfl

/-! ## What is found -/

/-- A key is missing when no key of the map equals it. -/
theorem find?_eq_none_iff (map : MultiMap κ ν) (key : κ) :
    map.find? key = none ↔ ∀ a ∈ map.keys, (a == key) = false := by
  simp [find?, keys]

/-- What is found under a key is the value list of an entry with an equal key. -/
theorem exists_mem_of_find? {map : MultiMap κ ν} {key : κ} {values : List ν}
    (found : map.find? key = some values) :
    ∃ entry ∈ map.entries, (entry.1 == key) = true ∧ entry.2 = values := by
  obtain ⟨entry, here, rfl⟩ := Option.map_eq_some_iff.mp found
  have same := List.find?_some here
  exact ⟨entry, List.mem_of_find?_eq_some here, same, rfl⟩

private theorem find?_putEntry_self (same : (key == key) = true) (values : List ν) :
    ∀ entries : List (κ × List ν),
      ((putEntry key values entries).find? (·.1 == key)).map Prod.snd = some values
  | [] => by simp [putEntry, same]
  | entry :: rest => by
    cases here : entry.1 == key with
    | true => simp [putEntry, here]
    | false => simp [putEntry, here, find?_putEntry_self same values rest]

/-- A key that equals itself is found with what was just assigned to it. -/
theorem find?_assign_self {key : κ} (same : (key == key) = true) (values : Option (List ν))
    (map : MultiMap κ ν) : (map.assign key values).find? key = values := by
  cases values with
  | none =>
    rw [assign, find?_eq_none_iff]
    intro a member
    simp only [keys, erase, List.mem_map, List.mem_filter] at member
    obtain ⟨entry, ⟨-, apart⟩, rfl⟩ := member
    simpa using apart
  | some values => exact find?_putEntry_self same values map.entries

/-- Values that are put in under a key that is there are found under it. -/
theorem find?_put_of_found {map : MultiMap κ ν} {key : κ} {old : List ν}
    (found : map.find? key = some old) (values : List ν) :
    (map.put key values).find? key = some values := by
  obtain ⟨entries⟩ := map
  simp only [find?, put] at found ⊢
  induction entries with
  | nil => cases found
  | cons entry rest ih =>
    rw [putEntry]
    cases here : entry.1 == key with
    | true => simp [here]
    | false => simpa [here] using ih (by simpa [here] using found)

private theorem find?_putEntry_of_apart {key other : κ} (values : List ν)
    (apart : (key == other) = false) : ∀ {entries : List (κ × List ν)},
      (∀ entry ∈ entries, (entry.1 == key) = true → (entry.1 == other) = false) →
        (putEntry key values entries).find? (·.1 == other) = entries.find? (·.1 == other)
  | [], _ => by simp [putEntry, apart]
  | entry :: rest, others => by
    have ih := find?_putEntry_of_apart values apart
      fun entry member => others entry (List.mem_cons_of_mem _ member)
    cases here : entry.1 == key with
    | true => simp [putEntry, here, others entry (List.mem_cons_self ..) here]
    | false => simp [putEntry, here, List.find?_cons, ih]

private theorem find?_filter_of_apart {key other : κ} : ∀ {entries : List (κ × List ν)},
    (∀ entry ∈ entries, (entry.1 == key) = true → (entry.1 == other) = false) →
      (entries.filter fun entry => !(entry.1 == key)).find? (·.1 == other) =
        entries.find? (·.1 == other)
  | [], _ => rfl
  | entry :: rest, others => by
    have ih := find?_filter_of_apart fun entry member => others entry (List.mem_cons_of_mem _ member)
    cases here : entry.1 == key with
    | true => simp [here, others entry (List.mem_cons_self ..) here, ih]
    | false => simp [here, List.find?_cons, ih]

/-- An assignment does not show under keys that are apart from all that equal its key. -/
theorem find?_assign_of_apart {map : MultiMap κ ν} {key other : κ} (apart : (key == other) = false)
    (others : ∀ a ∈ map.keys, (a == key) = true → (a == other) = false)
    (values : Option (List ν)) : (map.assign key values).find? other = map.find? other := by
  simp only [keys, List.forall_mem_map] at others
  cases values with
  | none => simp only [assign, erase, find?, find?_filter_of_apart others]
  | some values => simp only [assign, put, find?, find?_putEntry_of_apart values apart others]

private theorem putEntry_found {key : κ} {values : List ν} : ∀ {entries : List (κ × List ν)},
    (entries.find? (·.1 == key)).map Prod.snd = some values → putEntry key values entries = entries
  | [], found => by simp at found
  | entry :: rest, found => by
    cases here : entry.1 == key with
    | true =>
      simp only [List.find?_cons, here, Option.map_some, Option.some.injEq] at found
      simp [putEntry, here, ← found]
    | false =>
      simp only [List.find?_cons, here] at found
      simp [putEntry, here, putEntry_found found]

/-- Assigning what is found already changes nothing. -/
theorem assign_find? (map : MultiMap κ ν) (key : κ) : map.assign key (map.find? key) = map := by
  cases found : map.find? key with
  | none =>
    have apart := (find?_eq_none_iff map key).mp found
    simp only [keys, List.forall_mem_map] at apart
    have kept : (map.entries.filter fun entry => !(entry.1 == key)) = map.entries :=
      List.filter_eq_self.mpr fun entry member => by rw [apart entry member, Bool.not_false]
    simp only [assign, erase, kept]
  | some values => simp only [assign, put, putEntry_found found]

private theorem filter_putEntry {key : κ} (same : (key == key) = true) (values : List ν) :
    ∀ entries : List (κ × List ν),
      ((putEntry key values entries).filter fun entry => !(entry.1 == key)) =
        entries.filter fun entry => !(entry.1 == key)
  | [] => by simp [putEntry, same]
  | entry :: rest => by
    cases here : entry.1 == key with
    | true => simp [putEntry, here]
    | false => simp [putEntry, here, filter_putEntry same values rest]

/-- An assignment leaves the entries of other keys, in their order. -/
theorem erase_assign {key : κ} (same : (key == key) = true) (values : Option (List ν))
    (map : MultiMap κ ν) : (map.assign key values).erase key = map.erase key := by
  cases values with
  | none => simp [assign, erase]
  | some values => simp only [assign, put, erase, filter_putEntry same]

/-! ## Entries and keys -/

private theorem mem_putEntry {key : κ} {values : List ν} {entry : κ × List ν} :
    ∀ {entries : List (κ × List ν)}, entry ∈ putEntry key values entries →
      entry ∈ entries ∨
        entry.2 = values ∧ (entry.1 = key ∨ ∃ old ∈ entries, old.1 = entry.1)
  | [], member => by
    simp only [putEntry, List.mem_singleton] at member
    subst member
    exact .inr ⟨rfl, .inl rfl⟩
  | first :: rest, member => by
    rw [putEntry] at member
    split at member
    · rcases List.mem_cons.mp member with rfl | member
      · exact .inr ⟨rfl, .inr ⟨first, List.mem_cons_self .., rfl⟩⟩
      · exact .inl (List.mem_cons_of_mem _ member)
    · rcases List.mem_cons.mp member with rfl | member
      · exact .inl (List.mem_cons_self ..)
      · rcases mem_putEntry member with old | ⟨eq, new | ⟨old, member, same⟩⟩
        · exact .inl (List.mem_cons_of_mem _ old)
        · exact .inr ⟨eq, .inl new⟩
        · exact .inr ⟨eq, .inr ⟨old, List.mem_cons_of_mem _ member, same⟩⟩

/-- Every entry after an assignment was there before or holds the assigned values, under a key that
was there before or is the assigned one. -/
theorem mem_entries_assign {map : MultiMap κ ν} {key : κ} {values : Option (List ν)}
    {entry : κ × List ν} (member : entry ∈ (map.assign key values).entries) :
    entry ∈ map.entries ∨
      some entry.2 = values ∧ (entry.1 = key ∨ ∃ old ∈ map.entries, old.1 = entry.1) := by
  cases values with
  | none => exact .inl (List.mem_filter.mp member).1
  | some values =>
    rcases mem_putEntry member with old | ⟨rfl, origin⟩
    · exact .inl old
    · exact .inr ⟨rfl, origin⟩

/-- What holds of all keys and of the assigned one holds of all keys after an assignment. -/
theorem forall_keys_assign {p : κ → Prop} {map : MultiMap κ ν} {key : κ}
    (every : ∀ a ∈ map.keys, p a) (here : p key) (values : Option (List ν)) :
    ∀ a ∈ (map.assign key values).keys, p a := by
  intro a member
  obtain ⟨entry, held, rfl⟩ := List.mem_map.mp member
  rcases mem_entries_assign held with old | ⟨-, rfl | ⟨old, member, same⟩⟩
  · exact every _ (List.mem_map_of_mem old)
  · exact here
  · exact same ▸ every _ (List.mem_map_of_mem member)

/-- Values that are put in are there. -/
theorem exists_mem_put (key : κ) (values : List ν) (map : MultiMap κ ν) :
    ∃ entry ∈ (map.put key values).entries, entry.2 = values := by
  obtain ⟨entries⟩ := map
  simp only [put]
  induction entries with
  | nil => exact ⟨_, List.mem_cons_self .., rfl⟩
  | cons entry rest ih =>
    rw [putEntry]
    split
    · exact ⟨_, List.mem_cons_self .., rfl⟩
    · obtain ⟨found, member, same⟩ := ih
      exact ⟨found, List.mem_cons_of_mem _ member, same⟩

private theorem keys_putEntry (key : κ) (values : List ν) : ∀ entries : List (κ × List ν),
    (putEntry key values entries).map Prod.fst =
      if entries.any (·.1 == key) then entries.map Prod.fst else entries.map Prod.fst ++ [key]
  | [] => rfl
  | entry :: rest => by
    cases here : entry.1 == key with
    | true => simp [putEntry, here]
    | false =>
      simp only [putEntry, here, List.map_cons, keys_putEntry key values rest, List.any_cons,
        Bool.false_or, Bool.false_eq_true, ↓reduceIte]
      split <;> rfl

/-- Putting in values under a key that is there leaves the keys, and another key comes last. -/
theorem keys_put (key : κ) (values : List ν) (map : MultiMap κ ν) :
    (map.put key values).keys = if map.contains key then map.keys else map.keys ++ [key] := by
  rw [keys, put, keys_putEntry, contains, find?, Option.isSome_map, List.isSome_find?]
  rfl

theorem Distinct.empty : (empty : MultiMap κ ν).Distinct := List.Pairwise.nil

/-- No assignment makes two entries share a key. -/
theorem Distinct.assign {map : MultiMap κ ν} (distinct : map.Distinct) (key : κ)
    (values : Option (List ν)) : (map.assign key values).Distinct := by
  cases values with
  | none => exact distinct.sublist (List.filter_sublist.map Prod.fst)
  | some values =>
    rw [Distinct, keys, MultiMap.assign, put, keys_putEntry]
    split
    · exact distinct
    · rename_i absent
      refine List.pairwise_append.mpr ⟨distinct, List.pairwise_singleton .., ?_⟩
      simpa using absent

/-- In a map with distinct keys an entry is found under its key, if keys equal themselves. -/
theorem Distinct.find?_eq {map : MultiMap κ ν} (distinct : map.Distinct) {entry : κ × List ν}
    (member : entry ∈ map.entries) (same : (entry.1 == entry.1) = true) :
    map.find? entry.1 = some entry.2 := by
  obtain ⟨before, after, split⟩ := List.append_of_mem member
  rw [Distinct, keys, split, List.map_append, List.map_cons] at distinct
  have apart := (List.pairwise_append.mp distinct).2.2
  have none : before.find? (·.1 == entry.1) = none := by
    rw [List.find?_eq_none]
    intro old member eq
    have := apart old.1 (List.mem_map_of_mem member) entry.1 (List.mem_cons_self ..)
    simp_all
  simp [find?, split, List.find?_append, none, same]

/-- The entries of a map with distinct keys are the keys with what is found under them. -/
theorem Distinct.entries_eq {map : MultiMap κ ν} (distinct : map.Distinct)
    (same : ∀ key ∈ map.keys, (key == key) = true) :
    map.entries = map.keys.map fun key => (key, (map.find? key).getD []) := by
  have each : ∀ entry ∈ map.entries, entry = (entry.1, (map.find? entry.1).getD []) := by
    intro entry member
    rw [distinct.find?_eq member (same _ (List.mem_map_of_mem member)), Option.getD_some]
  calc map.entries
      = map.entries.map fun entry => (entry.1, (map.find? entry.1).getD []) := by
        rw [← List.map_congr_left each, List.map_id']
    _ = map.keys.map fun key => (key, (map.find? key).getD []) := by
        rw [keys, List.map_map]
        rfl

/-! ## Two assignments -/

private theorem putEntry_filter {key other : κ} (values : List ν) (apart : (key == other) = false) :
    ∀ {entries : List (κ × List ν)},
      (∀ entry ∈ entries, (entry.1 == other) = true → (entry.1 == key) = false) →
        putEntry key values (entries.filter fun entry => !(entry.1 == other)) =
          (putEntry key values entries).filter fun entry => !(entry.1 == other)
  | [], _ => by simp [putEntry, apart]
  | entry :: rest, others => by
    have ih := putEntry_filter values apart
      fun entry member => others entry (List.mem_cons_of_mem _ member)
    cases here : entry.1 == other with
    | true => simp [putEntry, here, others entry (List.mem_cons_self ..) here, ih]
    | false => cases there : entry.1 == key <;> simp [putEntry, here, there, ih]

private theorem putEntry_putEntry_perm {key other : κ} (values values' : List ν)
    (apart : (key == other) = false) (apart' : (other == key) = false) :
    ∀ {entries : List (κ × List ν)},
      (∀ entry ∈ entries, (entry.1 == other) = true → (entry.1 == key) = false) →
        (putEntry key values (putEntry other values' entries)).Perm
          (putEntry other values' (putEntry key values entries))
  | [], _ => by
    simp only [putEntry, apart, apart', Bool.false_eq_true, ↓reduceIte]
    exact List.Perm.swap ..
  | entry :: rest, others => by
    have ih := putEntry_putEntry_perm values values' apart apart'
      fun entry member => others entry (List.mem_cons_of_mem _ member)
    cases here : entry.1 == other with
    | true => simp [putEntry, here, others entry (List.mem_cons_self ..) here]
    | false =>
      cases there : entry.1 == key with
      | true => simp [putEntry, here, there]
      | false => simpa [putEntry, here, there] using ih

/-- Assignments to keys that are apart give the same entries in either order. Only the order of the
entries depends on which key came first. -/
theorem assign_assign_perm {map : MultiMap κ ν} {key other : κ} (apart : (key == other) = false)
    (apart' : (other == key) = false)
    (others : ∀ a ∈ map.keys, (a == other) = true → (a == key) = false)
    (values values' : Option (List ν)) :
    ((map.assign other values').assign key values).entries.Perm
      ((map.assign key values).assign other values').entries := by
  simp only [keys, List.forall_mem_map] at others
  have others' : ∀ entry ∈ map.entries, (entry.1 == key) = true → (entry.1 == other) = false := by
    intro entry member same
    cases same' : entry.1 == other with
    | false => rfl
    | true => rw [others entry member same'] at same; cases same
  cases values with
  | none =>
    cases values' with
    | none =>
      simp only [assign, erase, List.filter_filter, Bool.and_comm]
      exact List.Perm.refl _
    | some values' =>
      simp only [assign, erase, put, putEntry_filter values' apart' others']
      exact List.Perm.refl _
  | some values =>
    cases values' with
    | none =>
      simp only [assign, erase, put, putEntry_filter values apart others]
      exact List.Perm.refl _
    | some values' => exact putEntry_putEntry_perm values values' apart apart' others

/-- Maps with the same entries in any order are equal, if the entries equal themselves. -/
theorem equal_of_perm [BEq ν] {a b : MultiMap κ ν} (perm : a.entries.Perm b.entries)
    (distinct : b.Distinct)
    (same : ∀ entry ∈ a.entries, (entry.1 == entry.1) = true ∧ (entry.2 == entry.2) = true) :
    a.equal b = true := by
  rw [equal, size, size, perm.length_eq, beq_self_eq_true, Bool.true_and, List.all_eq_true]
  intro entry member
  obtain ⟨sameKey, sameValues⟩ := same entry member
  rw [distinct.find?_eq (perm.mem_iff.mp member) sameKey]
  exact sameValues

end TypedHeaders.MultiMap
