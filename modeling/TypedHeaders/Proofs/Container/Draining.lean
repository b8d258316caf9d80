import TypedHeaders.Proofs.Container.Orderly

/-! # Taking everything out

Taking the last field of the first name, again and again, gives every field of a container in order
exactly once: name by name, and from the last field of a name to its first. A name stays in its place
until its last field is gone, and then the next name is the first one. When nothing is left, there is
nothing more to take.
-/

namespace TypedHeaders.Container

variable {container : Container}

/-- Pairs of a name and a field that are taken out one after the other, without a failure. -/
inductive Draws : List (Value × Value) → Container → Container → Prop
  | nil (container : Container) : Draws [] container container
  | cons {pair : Value × Value} {pairs : List (Value × Value)} {container middle after : Container}
      (first : perform .takeFromFirst container = (.ok (pairValue pair), middle))
      (rest : Draws pairs middle after) : Draws (pair :: pairs) container after

/-- Every field with its name, the names in their order and the fields of each from the last to the
first. -/
def drained (container : Container) : List (Value × Value) :=
  container.fields.entries.flatMap fun entry => entry.2.reverse.map (entry.1, ·)

/-! ## One step -/

private theorem perform_takeFromFirst_of_nil (empty : container.fields.entries = []) :
    perform .takeFromFirst container = (.error (.missing none), container) := by
  have noKeys : container.fields.keys = [] := by rw [MultiMap.keys, empty, List.map_nil]
  rw [perform, Operation.action, map_apply, takeFromFirst,
    bind_apply_of_ok (current_apply container), noKeys]
  rfl

/-- What becomes of the entries if the fields of the first name are exchanged or taken away. -/
theorem Orderly.entries_assign (orderly : container.Orderly) {key : Value} {fields : List Value}
    {rest : List (Value × List Value)} (entries : container.fields.entries = (key, fields) :: rest)
    (fields' : List Value) :
    (container.assign key (Effect.settled fields')).fields.entries =
      if fields' = [] then rest else (key, fields') :: rest := by
  have isKey : key ∈ container.fields.keys := by simp [MultiMap.keys, entries]
  have digest := (orderly.keys key isKey).digest
  have same := beq_self_of_requireDigest digest
  have apart : ∀ entry ∈ rest, (entry.1 == key) = false := by
    intro entry member
    have isKey' : entry.1 ∈ container.fields.keys := by
      rw [MultiMap.keys, entries]
      exact List.mem_map_of_mem (List.mem_cons_of_mem _ member)
    have distinct := orderly.distinct
    rw [MultiMap.Distinct, MultiMap.keys, entries, List.map_cons, List.pairwise_cons] at distinct
    rw [beq_comm_of_requireDigest (orderly.keys _ isKey').digest digest]
    exact distinct.1 _ (List.mem_map_of_mem member)
  by_cases gone : fields' = []
  · have others : rest.filter (fun entry => !(entry.1 == key)) = rest :=
      List.filter_eq_self.mpr fun entry member => by rw [apart entry member, Bool.not_false]
    simp [gone, Effect.settled, MultiMap.assign, MultiMap.erase, entries, same, others]
  · simp [gone, Effect.settled, MultiMap.assign, MultiMap.put, MultiMap.putEntry, entries, same]

private theorem Orderly.takeFromFirst_apply (orderly : container.Orderly) {key last : Value}
    {fields : List Value} {rest : List (Value × List Value)}
    (entries : container.fields.entries = (key, fields ++ [last]) :: rest) :
    perform .takeFromFirst container =
      (.ok (pairValue (key, last)), container.assign key (Effect.settled fields)) := by
  have member : (key, fields ++ [last]) ∈ container.fields.entries := by simp [entries]
  have keys : container.fields.keys = key :: rest.map Prod.fst := by
    rw [MultiMap.keys, entries, List.map_cons]
  have slot := (orderly.keys key (List.mem_map_of_mem member)).slot
  have take : takeLast key container =
      (.ok last, container.assign key (Effect.settled fields)) := by
    rw [takeLast_eq, Effect.run_of_ok slot, orderly.find?_eq member]
    simp [Effect.present, lastOf, Except.map, leave]
  rw [perform, Operation.action, map_apply, takeFromFirst,
    bind_apply_of_ok (current_apply container), keys]
  simp only [bind_apply_of_ok take]
  rfl

/-- A container in order is empty, or the first of its pairs is taken and leaves it in order with the
others. -/
theorem Orderly.take_cases (orderly : container.Orderly) :
    container.fields.entries = [] ∨ ∃ pair after,
      perform .takeFromFirst container = (.ok (pairValue pair), after) ∧ after.Orderly ∧
        container.drained = pair :: after.drained := by
  rcases entries : container.fields.entries with _ | ⟨⟨key, fields⟩, rest⟩
  · exact .inl rfl
  right
  have member : (key, fields) ∈ container.fields.entries := by simp [entries]
  rcases List.eq_nil_or_concat fields with empty | ⟨before, last, concat⟩
  · exact (orderly.filled _ member empty).elim
  rw [List.concat_eq_append] at concat
  subst concat
  have notNil : Effect.settled before ≠ some [] := by
    intro nil
    exact ((Effect.settled_eq_some_iff ..).mp nil).1 ((Effect.settled_eq_some_iff ..).mp nil).2
  refine ⟨(key, last), _, orderly.takeFromFirst_apply entries,
    orderly.assign (orderly.keys key (List.mem_map_of_mem member)) notNil, ?_⟩
  rw [drained, drained, entries, orderly.entries_assign entries]
  -- The name stays as long as it has fields before its last one.
  by_cases gone : before = []
  · simp [gone]
  · simp [gone]

/-- All pairs of a container in order can be taken out, and then it is empty. -/
theorem Orderly.exists_draws (orderly : container.Orderly) :
    ∃ emptied, Draws container.drained container emptied ∧ emptied.fields.entries = [] := by
  generalize pairs : container.drained = drained
  induction drained generalizing container with
  | nil =>
    rcases orderly.take_cases with empty | ⟨pair, after, -, -, split⟩
    · exact ⟨container, .nil container, empty⟩
    · rw [pairs] at split
      cases split
  | cons pair rest ih =>
    rcases orderly.take_cases with empty | ⟨pair', after, taken, orderly', split⟩
    · rw [drained, empty] at pairs
      cases pairs
    · rw [pairs] at split
      cases split
      obtain ⟨emptied, draws, empty⟩ := ih orderly' rfl
      exact ⟨emptied, .cons taken draws, empty⟩

/-! ## What is taken of each name -/

private theorem length_drained (container : Container) :
    container.drained.length = container.fields.pairs.length := by
  simp [drained, MultiMap.pairs, List.length_flatMap]

private theorem filter_eq_toList_find? {α : Type} {p : α → Bool} {items : List α}
    (apart : items.Pairwise fun a b => p a = true → p b = false) :
    items.filter p = (items.find? p).toList := by
  induction items with
  | nil => rfl
  | cons item items ih =>
    obtain ⟨others, rest⟩ := List.pairwise_cons.mp apart
    cases here : p item with
    | true =>
      have none : items.filter p = [] := by
        rw [List.filter_eq_nil_iff]
        intro other member
        simp [others other member here]
      simp [here, none]
    | false => simp [here, ih rest]

private theorem filter_flatMap_of_key {key : Value} {onFields : List Value → List Value}
    (entries : List (Value × List Value)) :
    (entries.flatMap fun entry => (onFields entry.2).map (entry.1, ·)).filter (·.1 == key) =
      (entries.filter (·.1 == key)).flatMap fun entry => (onFields entry.2).map (entry.1, ·) := by
  induction entries with
  | nil => rfl
  | cons entry entries ih =>
    rw [List.flatMap_cons, List.filter_append, ih]
    cases here : entry.1 == key with
    | true =>
      have all : (onFields entry.2).filter (fun _ => true) = onFields entry.2 :=
        List.filter_eq_self.mpr fun _ _ => rfl
      simp [List.filter_map, Function.comp_def, here, all]
    | false => simp [List.filter_map, Function.comp_def, here]

/-- The fields taken of a name, put back in reverse, are those that it had. -/
theorem Keyed.reverse_drained (keyed : Keyed container.fields) {key : Value}
    (digest : requireDigest key = .ok ()) :
    ((container.drained.filter (·.1 == key)).map Prod.snd).reverse = container.fieldsOf key := by
  have apart : container.fields.entries.Pairwise fun a b =>
      (a.1 == key) = true → (b.1 == key) = false := by
    refine (List.pairwise_map.mp keyed.distinct).imp_of_mem ?_
    intro a b member member' distinct same
    by_contra same'
    rw [Bool.not_eq_false] at same'
    have eq := beq_congr_of_requireDigest (keyed.digests _ (List.mem_map_of_mem member')) digest
      (keyed.digests _ (List.mem_map_of_mem member)) same'
    rw [distinct, same] at eq
    cases eq
  rw [drained, filter_flatMap_of_key, filter_eq_toList_find? apart, fieldsOf, MultiMap.find?]
  cases container.fields.entries.find? (·.1 == key) with
  | none => rfl
  | some entry => simp [Function.comp_def]

/-- From a container in order all its fields can be taken out, each exactly once: the names in their
order, and the fields of each from the last to the first. Then it is empty and nothing more can be
taken. What was taken of a name is, in reverse, all that it had. -/
theorem drain_of_orderly (orderly : container.Orderly) :
    container.drained.length = container.fields.pairs.length ∧
      (∃ emptied, Draws container.drained container emptied ∧ emptied.fields.entries = [] ∧
        perform .takeFromFirst emptied = (.error (.missing none), emptied)) ∧
      ∀ name key, container.profile.slot name = .ok key →
        let fields := ((container.drained.filter (·.1 == key)).map Prod.snd).reverse
        (perform (.presentFields name) container).1 =
          if fields = [] then .error (.missing (some key)) else .ok (.tuple fields) := by
  obtain ⟨emptied, draws, empty⟩ := orderly.exists_draws
  refine ⟨length_drained container,
    ⟨emptied, draws, empty, perform_takeFromFirst_of_nil empty⟩, fun name key slot => ?_⟩
  simp only [orderly.keyed.reverse_drained ((slot_eq_ok_iff ..).mp slot).2]
  have run := perform_on slot .presentFields
  rw [orderly.filled.find?_eq key] at run
  rw [NameOperation.on] at run
  rw [run]
  by_cases none : container.fieldsOf key = []
  · rw [if_pos none, none]
    rfl
  · rw [if_neg none, Effect.settled, if_neg none]
    rfl

theorem drain_of_orderly_via :
    let container := after [.addField (.text "Via") (.octets [97]),
      .addField (.text "Age") (.octets [98]), .addField (.text "VIA") (.octets [99])]
        (.new .common)
    container.Orderly ∧
      container.drained = [(.text "via", .octets [99]), (.text "via", .octets [97]),
        (.text "age", .octets [98])] ∧
      (∃ emptied, Draws container.drained container emptied ∧ emptied.fields.entries = [] ∧
        perform .takeFromFirst emptied = (.error (.missing none), emptied)) ∧
      (perform (.presentFields (.text "Via")) container).1 =
        .ok (.tuple [.octets [97], .octets [99]]) := by
  intro container
  have orderly : container.Orderly :=
    orderly_after_of_names .common _ [("via", [.octets [97], .octets [99]]), ("age", [.octets [98]])]
      rfl (by simp) (by decide)
  obtain ⟨-, drain, getall⟩ := drain_of_orderly orderly
  exact ⟨orderly, rfl, drain, getall (.text "Via") (.text "via") rfl⟩

end TypedHeaders.Container
