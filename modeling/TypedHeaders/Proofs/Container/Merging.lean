import Mathlib.Data.List.Forall2
import TypedHeaders.Proofs.Container.Failure
import TypedHeaders.Proofs.Container.Orderly

/-! # Merging

A merge overwrites the plain view of a container with the pairs of its operand. A name that is there
stays where it is and keeps all its fields but the last, and a new name comes after all others with one
field. Of several pairs with one name the last one wins, but the first one gives the name its place.
Merging the same operand once more changes nothing, and neither does merging a container with itself.
-/

namespace TypedHeaders

variable {container : Container} {given : List (Value × Value)}

namespace Container

/-- The pairs that an operand gives: a list of pairs and a dictionary give their own, and a container
in order gives its plain view. -/
inductive Operand.Gives : Operand → List (Value × Value) → Prop
  | pairs {items : List Value} {pairs : List (Value × Value)}
      (unpacked : List.Forall₂ (fun item pair => unpack item = .ok pair) items pairs) :
      Gives (.plain (.list items)) pairs
  | mapping (entries : List (Value × Value)) : Gives (.plain (.mapping entries)) entries
  | container {source : Container} (orderly : source.Orderly) :
      Gives (.container source) source.lastItems

/-- Pairs of a name and a field, each with the key in place of the name. -/
def Resolved (profile : Profile) (pairs given : List (Value × Value)) : Prop :=
  List.Forall₂ (fun pair entry => profile.Resolves pair.1 entry.1 ∧ entry.2 = pair.2) pairs given

/-- The field of the last pair with a key. -/
def latest (given : List (Value × Value)) (key : Value) : Option Value :=
  (given.reverse.find? (·.1 == key)).map Prod.snd

/-- The keys of pairs that are not yet in a container, each where it comes first. -/
def newKeys (given : List (Value × Value)) (container : Container) : List Value :=
  ((given.map Prod.fst).filter fun key => !container.fields.contains key).eraseDups

/-- The container with another last field under a key, or with the field under a new key. -/
def withLast (key field : Value) (container : Container) : Container :=
  container.assign key (some ((container.fieldsOf key).dropLast ++ [field]))

/-- The container with the last fields of some keys set, one after the other. -/
def overlaid (given : List (Value × Value)) (container : Container) : Container :=
  given.foldl (fun container pair => container.withLast pair.1 pair.2) container

/-- What a merge of some pairs has made of a container. -/
structure Merged (given : List (Value × Value)) (before after : Container) : Prop where
  /-- The plain view is the one before, overwritten by the pairs. -/
  view : ∃ items items', perform .lastPairs before = (.ok (.list (items.map pairValue)), before) ∧
    perform .lastPairs after = (.ok (.list (items'.map pairValue)), after) ∧
    Value.ofEntries items' = Value.ofEntries (items ++ given)
  /-- The names that were there keep their places and all their fields but the last. The new ones come
  after them, with one field each. -/
  entries : ∃ old new, after.fields.entries = old ++ new ∧
    List.Forall₂ (fun entry entry' => entry'.1 = entry.1 ∧ entry'.2.length = entry.2.length ∧
      entry'.2.dropLast = entry.2.dropLast) before.fields.entries old ∧
    new.map Prod.fst = newKeys given before ∧ ∀ entry ∈ new, ∃ field, entry.2 = [field]

@[simp]
theorem overlaid_cons (key field : Value) (given : List (Value × Value)) (container : Container) :
    overlaid ((key, field) :: given) container = overlaid given (container.withLast key field) := rfl

private theorem overlaid_rest (given : List (Value × Value)) (container : Container) :
    (overlaid given container).profile = container.profile ∧
      (overlaid given container).attached = container.attached := by
  induction given generalizing container with
  | nil => exact ⟨rfl, rfl⟩
  | cons pair given ih => exact ih _

private theorem latest_cons (key field : Value) (given : List (Value × Value)) (other : Value) :
    latest ((key, field) :: given) other =
      (latest given other).or (if key == other then some field else none) := by
  rw [latest, latest, List.reverse_cons, List.find?_append, Option.map_or]
  cases same : key == other <;> simp [same]

/-! ## The pairs of an operand -/

/-- The pairs that an operand gives can all be made. -/
theorem Operand.Gives.pairs_eq {operand : Operand} {pairs : List (Value × Value)}
    (gives : operand.Gives pairs) : operand.pairs = .ok (pairs.map .ok) := by
  cases gives with
  | @pairs items pairs unpacked =>
    have each : items.map unpack = pairs.map .ok := by
      induction unpacked with
      | nil => rfl
      | cons here _ ih => rw [List.map_cons, List.map_cons, here, ih]
    rw [← each]
    rfl
  | mapping => rfl
  | @container source orderly =>
    rw [Operand.pairs, MultiMap.keys, lastItems, List.map_map, List.map_map]
    refine congrArg Except.ok (List.map_congr_left fun entry member => ?_)
    simp only [Function.comp_apply, orderly.lastField_apply member]
    rfl

/-! ## One pair -/

private theorem Orderly.withLast (orderly : container.Orderly) {key : Value}
    (resolves : container.profile.Resolves key key) (field : Value) :
    (container.withLast key field).Orderly :=
  orderly.assign resolves (by simp)

private theorem Orderly.setLast_apply (orderly : container.Orderly) {name key : Value}
    (resolves : container.profile.Resolves name key) (field : Value) :
    setLast name field container = (.ok (), container.withLast key field) := by
  rw [setLast_eq, Effect.run_of_ok resolves.slot, Container.withLast, fieldsOf]
  cases found : container.fields.find? key with
  | none => rfl
  | some fields =>
    cases fields with
    | nil => exact (orderly.filled.find?_ne key found).elim
    | cons => rfl

private theorem Keyed.withLast (keyed : Keyed container.fields) {key : Value}
    (digest : requireDigest key = .ok ()) (field : Value) :
    Keyed (container.withLast key field).fields :=
  keyed.assign digest (some ((container.fieldsOf key).dropLast ++ [field]))

private theorem Keyed.withLast_find? (keyed : Keyed container.fields) {key other : Value}
    (digest : requireDigest key = .ok ()) (digest' : requireDigest other = .ok ())
    (field : Value) :
    (container.withLast key field).fields.find? other =
      if key == other then some ((container.fieldsOf other).dropLast ++ [field])
      else container.fields.find? other := by
  cases same : key == other with
  | true =>
    rw [← (keyed.withLast digest field).find?_congr digest digest' same, fieldsOf,
      ← keyed.find?_congr digest digest' same]
    exact MultiMap.find?_assign_self (beq_self_of_requireDigest digest) ..
  | false => exact MultiMap.find?_assign_of_apart same (keyed.apart digest digest' same) _

private theorem Keyed.withLast_contains (keyed : Keyed container.fields) {key other : Value}
    (digest : requireDigest key = .ok ()) (digest' : requireDigest other = .ok ())
    (field : Value) :
    (container.withLast key field).fields.contains other =
      (key == other || container.fields.contains other) := by
  rw [MultiMap.contains, keyed.withLast_find? digest digest', MultiMap.contains]
  cases key == other <;> rfl

private theorem withLast_keys (key field : Value) (container : Container) :
    (container.withLast key field).fields.keys =
      if container.fields.contains key then container.fields.keys
      else container.fields.keys ++ [key] :=
  MultiMap.keys_put key _ _

/-- Setting the last field of a key puts it into the plain view. -/
theorem lastItems_withLast (key field : Value) (container : Container) :
    (container.withLast key field).lastItems = Value.putEntry container.lastItems key field := by
  obtain ⟨profile, ⟨entries⟩, attached⟩ := container
  simp only [lastItems, withLast, assign_fields, MultiMap.assign, MultiMap.put]
  generalize (fieldsOf _ key).dropLast = before
  induction entries with
  | nil => simp [MultiMap.putEntry, Value.putEntry]
  | cons entry rest ih =>
    rw [MultiMap.putEntry, List.map_cons, Value.putEntry]
    change _ = if (entry.1 == key) = true then _ else _
    cases entry.1 == key with
    | true => simp
    | false =>
      rw [← ih]
      rfl

/-! ## All pairs -/

namespace Resolved

variable {profile : Profile} {pairs : List (Value × Value)}

/-- The key of a resolved name resolves to itself. -/
theorem self (resolved : Resolved profile pairs given) :
    ∀ key ∈ given.map Prod.fst, profile.Resolves key key := by
  induction resolved with
  | nil => exact List.forall_mem_nil _
  | cons here _ ih => exact List.forall_mem_cons.mpr ⟨here.1.self, ih⟩

/-- Keys resolve to themselves alone. -/
theorem eq_of_self (resolved : Resolved profile pairs given)
    (self : ∀ pair ∈ pairs, profile.Resolves pair.1 pair.1) : given = pairs := by
  induction resolved with
  | nil => rfl
  | cons here _ ih =>
    obtain ⟨first, rest⟩ := List.forall_mem_cons.mp self
    have key := Except.ok.inj (here.1.slot.symm.trans first.slot)
    rw [ih rest, Prod.ext key here.2]

end Resolved

/-- Laying resolved pairs over an orderly container keeps it orderly. -/
theorem Orderly.overlaid (orderly : container.Orderly)
    (resolves : ∀ key ∈ given.map Prod.fst, container.profile.Resolves key key) :
    (overlaid given container).Orderly := by
  induction given generalizing container with
  | nil => exact orderly
  | cons pair given ih =>
    obtain ⟨here, rest⟩ := List.forall_mem_cons.mp resolves
    exact ih (orderly.withLast here pair.2) rest

/-- Storing the pairs one by one lays them over the container and does not fail. -/
theorem Orderly.setLasts_apply {profile : Profile} {pairs : List (Value × Value)}
    (resolved : Resolved profile pairs given) (orderly : container.Orderly)
    (isProfile : container.profile = profile) :
    setLasts (pairs.map .ok) container = (.ok (), Container.overlaid given container) := by
  induction resolved generalizing container with
  | nil => rfl
  | @cons pair entry _ _ here _ ih =>
    obtain ⟨resolves, same⟩ := here
    subst isProfile
    rw [List.map_cons, setLasts_cons_of_ok,
      bind_apply_of_ok (orderly.setLast_apply resolves pair.2), ← same]
    exact ih (orderly.withLast resolves.self entry.2) rfl

/-- Under each key the latest of the given fields takes the place of the last one there. -/
theorem Keyed.overlaid_find? (keyed : Keyed container.fields)
    (digests : ∀ key ∈ given.map Prod.fst, requireDigest key = .ok ()) {key : Value}
    (digest : requireDigest key = .ok ()) :
    (Container.overlaid given container).fields.find? key =
      ((latest given key).map fun field => (container.fieldsOf key).dropLast ++ [field]).or
        (container.fields.find? key) := by
  induction given generalizing container with
  | nil => rfl
  | cons pair given ih =>
    obtain ⟨here, rest⟩ := List.forall_mem_cons.mp digests
    have step := keyed.withLast_find? here digest pair.2
    have fields : ((container.withLast pair.1 pair.2).fieldsOf key).dropLast =
        (container.fieldsOf key).dropLast := by
      rw [fieldsOf, step]
      cases pair.1 == key <;> simp [fieldsOf]
    rw [overlaid_cons, ih (keyed.withLast here pair.2) rest, latest_cons, fields, step]
    cases latest given key <;> cases pair.1 == key <;> simp

/-- The new keys are those that are new after the first pair, behind the key of that pair if it is new
itself. -/
theorem Keyed.newKeys_cons (keyed : Keyed container.fields) {key : Value}
    (digest : requireDigest key = .ok ())
    (digests : ∀ key ∈ given.map Prod.fst, requireDigest key = .ok ()) (field : Value) :
    newKeys ((key, field) :: given) container =
      if container.fields.contains key then newKeys given (container.withLast key field)
      else key :: newKeys given (container.withLast key field) := by
  rw [newKeys, newKeys, List.map_cons, List.filter_cons]
  cases present : container.fields.contains key with
  | true =>
    -- Storing under a key that is there makes no other key present.
    have same : ∀ other ∈ given.map Prod.fst,
        (!(container.withLast key field).fields.contains other) =
          !container.fields.contains other := by
      intro other member
      rw [keyed.withLast_contains digest (digests other member)]
      cases same : key == other with
      | false => rfl
      | true =>
        rw [MultiMap.contains, keyed.find?_congr digest (digests other member) same] at present
        rw [MultiMap.contains, present]
        rfl
    rw [List.filter_congr same]
    rfl
  | false =>
    have apart : ∀ other ∈ given.map Prod.fst,
        (!(container.withLast key field).fields.contains other) =
          (!other == key && !container.fields.contains other) := by
      intro other member
      rw [keyed.withLast_contains digest (digests other member), Bool.not_or,
        beq_comm_of_requireDigest digest (digests other member)]
    rw [List.filter_congr apart]
    simp [List.eraseDups_cons, List.filter_filter]

/-- After the keys that were there come the new ones. -/
theorem Keyed.overlaid_keys (keyed : Keyed container.fields)
    (digests : ∀ key ∈ given.map Prod.fst, requireDigest key = .ok ()) :
    (Container.overlaid given container).fields.keys =
      container.fields.keys ++ newKeys given container := by
  induction given generalizing container with
  | nil => simp [Container.overlaid, newKeys]
  | cons pair given ih =>
    obtain ⟨here, rest⟩ := List.forall_mem_cons.mp digests
    rw [overlaid_cons, ih (keyed.withLast here pair.2) rest, withLast_keys,
      keyed.newKeys_cons here rest]
    split
    · rfl
    · rw [← List.append_cons]

theorem Keyed.overlaid (keyed : Keyed container.fields)
    (digests : ∀ key ∈ given.map Prod.fst, requireDigest key = .ok ()) :
    Keyed (Container.overlaid given container).fields := by
  induction given generalizing container with
  | nil => exact keyed
  | cons pair given ih =>
    obtain ⟨here, rest⟩ := List.forall_mem_cons.mp digests
    exact ih (keyed.withLast here pair.2) rest

/-- Containers that have the same apart from their fields and find the same under the same keys are
one. -/
theorem Keyed.eq_of_find? {a b : Container} (keyed : Keyed a.fields) (keyed' : Keyed b.fields)
    (rest : a.profile = b.profile ∧ a.attached = b.attached) (keys : a.fields.keys = b.fields.keys)
    (find? : ∀ key ∈ b.fields.keys, a.fields.find? key = b.fields.find? key) : a = b := by
  obtain ⟨profile, ⟨entries⟩, attached⟩ := a
  obtain ⟨profile', ⟨entries'⟩, attached'⟩ := b
  obtain ⟨rfl, rfl⟩ := rest
  have eq := keyed.distinct.entries_eq fun key member =>
    beq_self_of_requireDigest (keyed.digests key member)
  have eq' := keyed'.distinct.entries_eq fun key member =>
    beq_self_of_requireDigest (keyed'.digests key member)
  rw [keys, List.map_congr_left fun key member => by rw [find? key member], ← eq'] at eq
  cases eq
  rfl

/-- Pairs that are there already change nothing. -/
theorem Keyed.overlaid_overlaid (keyed : Keyed container.fields)
    (digests : ∀ key ∈ given.map Prod.fst, requireDigest key = .ok ()) :
    Container.overlaid given (Container.overlaid given container) =
      Container.overlaid given container := by
  have keyed' := keyed.overlaid digests
  have noneNew : newKeys given (Container.overlaid given container) = [] := by
    have present : (given.map Prod.fst).filter
        (fun key => !(Container.overlaid given container).fields.contains key) = [] := by
      rw [List.filter_eq_nil_iff]
      intro key member
      have digest := digests key member
      obtain ⟨pair, isGiven, rfl⟩ := List.mem_map.mp member
      have found : (latest given pair.1).isSome := by
        rw [latest, Option.isSome_map, List.find?_isSome]
        exact ⟨pair, List.mem_reverse.mpr isGiven, beq_self_of_requireDigest digest⟩
      obtain ⟨field, here⟩ := Option.isSome_iff_exists.mp found
      rw [MultiMap.contains, keyed.overlaid_find? digests digest, here]
      simp
    rw [newKeys, present, List.eraseDups_nil]
  refine (keyed'.overlaid digests).eq_of_find? keyed' (overlaid_rest ..) ?_ fun key member => ?_
  · rw [keyed'.overlaid_keys digests, noneNew, List.append_nil]
  · have digest := keyed'.digests key member
    rw [keyed'.overlaid_find? digests digest, fieldsOf, keyed.overlaid_find? digests digest]
    cases latest given key <;> simp

/-- Setting the last fields of keys one after the other puts them one after the other into the plain
view. -/
theorem lastItems_overlaid (given : List (Value × Value)) (container : Container) :
    (overlaid given container).lastItems =
      given.foldl (fun kept pair => Value.putEntry kept pair.1 pair.2) container.lastItems := by
  induction given generalizing container with
  | nil => rfl
  | cons pair given ih => rw [overlaid_cons, ih, lastItems_withLast, List.foldl_cons]

/-! ## The plain view -/

private theorem putEntry_of_apart {items : List (Value × Value)} {key : Value}
    (apart : ∀ item ∈ items, (item.1 == key) = false) (field : Value) :
    Value.putEntry items key field = items ++ [(key, field)] := by
  induction items with
  | nil => rfl
  | cons item items ih =>
    obtain ⟨here, rest⟩ := List.forall_mem_cons.mp apart
    have here' : Value.equal item.1 key = false := here
    rw [Value.putEntry, here', ih rest]
    rfl

private theorem foldl_putEntry_of_apart {before items : List (Value × Value)}
    (apart : ((before ++ items).map Prod.fst).Pairwise fun a b => (a == b) = false) :
    items.foldl (fun kept item => Value.putEntry kept item.1 item.2) before = before ++ items := by
  induction items generalizing before with
  | nil => rw [List.foldl_nil, List.append_nil]
  | cons item items ih =>
    have first : ∀ other ∈ before, (other.1 == item.1) = false := by
      rw [List.map_append, List.map_cons] at apart
      intro other member
      exact (List.pairwise_append.mp apart).2.2 _ (List.mem_map_of_mem member) _
        (List.mem_cons_self ..)
    rw [List.append_cons] at apart
    rw [List.foldl_cons, putEntry_of_apart first, ih apart, ← List.append_cons]

/-- No key is twice in the plain view, so it makes a dictionary of its own pairs. -/
theorem Keyed.ofEntries_lastItems (keyed : Keyed container.fields) :
    container.lastItems.foldl (fun kept item => Value.putEntry kept item.1 item.2) [] =
      container.lastItems := by
  have keys : container.lastItems.map Prod.fst = container.fields.keys := by
    rw [lastItems, List.map_map]
    rfl
  apply foldl_putEntry_of_apart
  rw [List.nil_append, keys]
  exact keyed.distinct

/-- The mapping of last fields after the merge is the one that reads the given pairs after the old
ones. -/
theorem Keyed.view_overlaid (keyed : Keyed container.fields)
    (digests : ∀ key ∈ given.map Prod.fst, requireDigest key = .ok ()) :
    Value.ofEntries (Container.overlaid given container).lastItems =
      Value.ofEntries (container.lastItems ++ given) := by
  rw [Value.ofEntries, Value.ofEntries, (keyed.overlaid digests).ofEntries_lastItems,
    List.foldl_append, keyed.ofEntries_lastItems, lastItems_overlaid]

/-! ## The entries -/

/-- A new key is found with one field. -/
theorem Keyed.overlaid_find?_of_new (keyed : Keyed container.fields)
    (digests : ∀ key ∈ given.map Prod.fst, requireDigest key = .ok ()) {key : Value}
    (isNew : key ∈ newKeys given container) :
    ∃ field, (Container.overlaid given container).fields.find? key = some [field] := by
  have keyed' := keyed.overlaid digests
  have distinct := keyed'.distinct
  rw [MultiMap.Distinct, keyed.overlaid_keys digests] at distinct
  -- It is apart from all keys that were there, so nothing was found under it.
  have absent : container.fields.find? key = none :=
    (MultiMap.find?_eq_none_iff ..).mpr fun old member =>
      (List.pairwise_append.mp distinct).2.2 old member key isNew
  have member : key ∈ (Container.overlaid given container).fields.keys := by
    rw [keyed.overlaid_keys digests]
    exact List.mem_append_right _ isNew
  have digest := keyed'.digests key member
  have present : (Container.overlaid given container).fields.find? key ≠ none := by
    rw [Ne, MultiMap.find?_eq_none_iff]
    intro apart
    have same := beq_self_of_requireDigest digest
    rw [apart key member] at same
    cases same
  rw [keyed.overlaid_find? digests digest, fieldsOf, absent] at present ⊢
  cases last : latest given key with
  | none => simp [last] at present
  | some field => exact ⟨field, rfl⟩

/-- What comes of the entries that were there, and the new ones. -/
theorem Orderly.entries_overlaid (orderly : container.Orderly)
    (digests : ∀ key ∈ given.map Prod.fst, requireDigest key = .ok ()) :
    ∃ old new, (Container.overlaid given container).fields.entries = old ++ new ∧
      List.Forall₂ (fun entry entry' => entry'.1 = entry.1 ∧ entry'.2.length = entry.2.length ∧
        entry'.2.dropLast = entry.2.dropLast) container.fields.entries old ∧
      new.map Prod.fst = newKeys given container ∧ ∀ entry ∈ new, ∃ field, entry.2 = [field] := by
  have keyed' := orderly.keyed.overlaid digests
  have entries := keyed'.distinct.entries_eq fun key member =>
    beq_self_of_requireDigest (keyed'.digests key member)
  rw [orderly.keyed.overlaid_keys digests, List.map_append] at entries
  refine ⟨_, _, entries, ?_, ?_, ?_⟩
  · rw [MultiMap.keys, List.map_map, List.forall₂_map_right_iff, List.forall₂_same]
    intro entry member
    have positive : 0 < entry.2.length := List.length_pos_iff.mpr (orderly.filled entry member)
    have digest := orderly.keyed.digests _ (List.mem_map_of_mem member)
    rw [Function.comp_apply, orderly.keyed.overlaid_find? digests digest, fieldsOf,
      orderly.find?_eq member]
    cases latest given entry.1 with
    | none => exact ⟨rfl, rfl, rfl⟩
    | some field =>
      simp only [Option.map_some, Option.getD_some, Option.some_or, List.length_append,
        List.length_dropLast, List.length_singleton, List.dropLast_concat, and_true, true_and]
      omega
  · rw [List.map_map]
    exact List.map_id _
  · rw [List.forall_mem_map]
    intro key isNew
    obtain ⟨field, found⟩ := orderly.keyed.overlaid_find?_of_new digests isNew
    exact ⟨field, by rw [found, Option.getD_some]⟩

/-! ## Merging twice, and with itself -/

/-- A container laid over by its own last fields stays as it is. -/
theorem Orderly.overlaid_lastItems (orderly : container.Orderly) :
    Container.overlaid container.lastItems container = container := by
  have each : ∀ item ∈ container.lastItems,
      container.withLast item.1 item.2 = container := by
    rw [lastItems, List.forall_mem_map]
    intro entry member
    have filled := orderly.filled entry member
    have here := container.assign_find? entry.1
    rw [orderly.find?_eq member] at here
    rwa [Container.withLast, fieldsOf, orderly.find?_eq member, Option.getD_some,
      List.getLastD_eq_getLast?, List.getLast?_eq_some_getLast filled, Option.getD_some,
      List.dropLast_concat_getLast filled]
  generalize container.lastItems = items at each ⊢
  induction items with
  | nil => rfl
  | cons item items ih =>
    obtain ⟨here, rest⟩ := List.forall_mem_cons.mp each
    rw [overlaid_cons, here, ih rest]

/-- The merge operation lays the pairs of its operand over the container. -/
theorem Orderly.perform_merge {operand : Operand} {pairs : List (Value × Value)}
    (orderly : container.Orderly) (gives : operand.Gives pairs)
    (resolved : Resolved container.profile pairs given) :
    perform (.merge (some operand) []) container =
      (.ok .null, Container.overlaid given container) := by
  rw [perform, Operation.action, silently_eq_ok_iff, merge_eq, mergedPairs, Option.elim_some,
    gives.pairs_eq, bind_apply, compute_apply]
  simp only [Except.map, List.map_nil, List.append_nil]
  exact orderly.setLasts_apply resolved rfl

/-- A merge into a container in order overwrites its plain view with the pairs of the operand, leaves
all fields of its names but the last where they are, and puts new names after them. The same merge once
more changes nothing, and neither does a merge of the container with itself. -/
theorem merge_of_orderly {operand : Operand} {pairs : List (Value × Value)}
    (orderly : container.Orderly) (gives : operand.Gives pairs)
    (resolved : Resolved container.profile pairs given) :
    ∃ after, perform (.merge (some operand) []) container = (.ok .null, after) ∧
      Merged given container after ∧
      perform (.merge (some operand) []) after = (.ok .null, after) ∧
      (operand = .container container → after = container) := by
  have digests key (member : key ∈ given.map Prod.fst) := (resolved.self key member).digest
  have orderly' := orderly.overlaid resolved.self
  have isProfile := (overlaid_rest given container).1
  refine ⟨overlaid given container, orderly.perform_merge gives resolved, ?_, ?_, ?_⟩
  · exact ⟨⟨_, _, orderly.perform_lastPairs, orderly'.perform_lastPairs,
      orderly.keyed.view_overlaid digests⟩, orderly.entries_overlaid digests⟩
  · rw [← isProfile] at resolved
    rw [orderly'.perform_merge gives resolved, orderly.keyed.overlaid_overlaid digests]
  · rintro rfl
    cases gives with
    | container =>
      have self : ∀ item ∈ container.lastItems, container.profile.Resolves item.1 item.1 := by
        rw [lastItems, List.forall_mem_map]
        exact fun entry member => orderly.keys _ (List.mem_map_of_mem member)
      rw [resolved.eq_of_self self, orderly.overlaid_lastItems]

theorem merge_of_orderly_host :
    let container := after [.addField (.text "Via") (.octets [97]),
      .addField (.text "Via") (.octets [98]), .addField (.text "Age") (.octets [49])] (.new .common)
    let pairs := [(Value.text "Host", Value.octets [120]), (.text "VIA", .octets [99]),
      (.text "HOST", .octets [121])]
    let given := [(Value.text "host", Value.octets [120]), (.text "via", .octets [99]),
      (.text "host", .octets [121])]
    let merge := Operation.merge (some (.plain (.list (pairs.map pairValue)))) []
    container.Orderly ∧ Resolved container.profile pairs given ∧
      ∃ after, perform merge container = (.ok .null, after) ∧ Merged given container after ∧
        perform merge after = (.ok .null, after) ∧
        after.fields.entries = [(.text "via", [.octets [97], .octets [99]]),
          (.text "age", [.octets [49]]), (.text "host", [.octets [121]])] := by
  intro container pairs given merge
  have orderly : container.Orderly :=
    orderly_after_of_names .common _ [("via", [.octets [97], .octets [98]]), ("age", [.octets [49]])]
      rfl (by simp) (by decide)
  have gives : Operand.Gives (.plain (.list (pairs.map pairValue))) pairs :=
    .pairs (.cons rfl (.cons rfl (.cons rfl .nil)))
  have resolved : Resolved container.profile pairs given :=
    .cons ⟨.headers (.header (by decide)), rfl⟩ (.cons ⟨.headers (.header (by decide)), rfl⟩
      (.cons ⟨.headers (.header (by decide)), rfl⟩ .nil))
  obtain ⟨after, first, merged, again, -⟩ := merge_of_orderly orderly gives resolved
  have same : after = (perform merge container).2 := by rw [first]
  exact ⟨orderly, resolved, after, first, merged, again, by rw [same]; rfl⟩

end Container

end TypedHeaders
