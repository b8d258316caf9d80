import TypedHeaders.Proofs.Container.Effect
import TypedHeaders.Proofs.Selector

/-! # What one operation does

Anything asked of a container except a merge either fails and leaves the container as it was, or gives
a result and makes one change at most: it assigns the fields under the key of a name, drops all
fields, or attaches something beside the fields.

No change takes the last field of a name and leaves the name, with one exception. A series of
positions that takes in all fields of a name may be filled with nothing.
-/

namespace TypedHeaders.Container

variable {α β : Type}

/-- The changes that leave no name without a field that had one. -/
inductive Change (container : Container) : Container → Prop
  | none : Change container container
  | assign {name key : Value} (slot : container.profile.slot name = .ok key)
      (fields : Option (List Value))
      (filled : fields = some [] → container.fields.find? key = some []) :
      Change container (container.assign key fields)
  | clear : Change container { container with fields := .empty }
  | attach (attached : List (String × Value)) :
      Change container { container with attached := attached }

/-- How a step on a container ends: it fails without a trace, or it makes one change. -/
inductive Ends (container : Container) : Except Error α × Container → Prop
  | failed (error : Error) : Ends container (.error error, container)
  | done (result : α) {after : Container} (change : Change container after) :
      Ends container (.ok result, after)

/-- Mapping the result does not change where a run ends. -/
theorem Ends.map {container : Container} {run : Except Error α × Container}
    (ends : Ends container run) (onOk : α → β) : Ends container (run.1.map onOk, run.2) := by
  cases ends with
  | failed error => exact .failed error
  | done result change => exact .done _ change

/-- A step that changes nothing. -/
def Reads (action : Action α) : Prop := ∀ container, (action container).2 = container

/-- A step that fails without a trace or makes one change. -/
def Single (action : Action α) : Prop := ∀ container, Ends container (action container)

/-! ## Steps that change nothing -/

namespace Reads

theorem pure (result : α) : Reads (pure result : Action α) := fun _ => rfl

theorem throw (error : Error) : Reads (throw error : Action α) := fun _ => rfl

theorem compute (outcome : Except Error α) : Reads (compute outcome) := by
  intro container
  rw [compute_apply]

theorem current : Reads current := fun _ => rfl

/-- A sequence of two readings changes nothing. -/
theorem bind {action : Action α} {next : α → Action β} (first : Reads action)
    (second : ∀ result, Reads (next result)) : Reads (action >>= next) := by
  intro container
  have same := first container
  rw [bind_apply]
  rcases outcome : action container with ⟨error | result, after⟩
  · rwa [outcome] at same
  · rw [outcome] at same
    change after = container at same
    subst same
    exact second result after

theorem map {action : Action α} (reads : Reads action) (onOk : α → β) : Reads (onOk <$> action) := by
  intro container
  rw [map_apply]
  exact reads container

theorem mapM {step : α → Action β} (reads : ∀ item, Reads (step item)) (items : List α) :
    Reads (items.mapM step) := by
  induction items with
  | nil => exact .pure _
  | cons item items ih =>
    rw [List.mapM_cons]
    exact (reads item).bind fun _ => ih.bind fun _ => .pure _

/-- A step that always leaves what it found only reads. -/
theorem run {effect : Effect α} (name : Value)
    (keeps : ∀ key found result left, effect key found = .ok (result, left) → left = found) :
    Reads (effect.run name) := by
  intro container
  cases slot : container.profile.slot name with
  | error error => rw [Effect.run_of_error slot]
  | ok key =>
    rw [Effect.run_of_ok slot]
    cases made : effect key (container.fields.find? key) with
    | error error => rfl
    | ok outcome =>
      obtain ⟨result, left⟩ := outcome
      obtain rfl := keeps _ _ _ _ made
      exact container.assign_find? key

/-- An action that only reads makes at most one change. -/
theorem single {action : Action α} (reads : Reads action) : Single action := by
  intro container
  have same := reads container
  rcases outcome : action container with ⟨error | result, after⟩ <;> rw [outcome] at same
  · exact same ▸ .failed error
  · exact same ▸ .done result .none

end Reads

/-- What is found is left if a step only computes with it. -/
private theorem keeps_of_map {outcome : Except Error α} {left left' : Option (List Value)}
    {result : α} (made : outcome.map (·, left) = .ok (result, left')) : left' = left := by
  cases outcome with
  | error error => cases made
  | ok result =>
    cases made
    rfl

private theorem reads_present (step : List Value → Except Error α) (name : Value) :
    Reads (Effect.run (Effect.present fun fields => (step fields).map (·, some fields)) name) := by
  apply Reads.run
  intro key found result left made
  cases found with
  | none => cases made
  | some fields => exact keeps_of_map made

theorem reads_lastField (name : Value) : Reads (lastField name) :=
  lastField_eq name ▸ reads_present lastOf name

private theorem reads_presentFields (name : Value) : Reads (presentFields name) :=
  presentFields_eq name ▸ reads_present .ok name

private theorem reads_countFields (name : Value) : Reads (countFields name) :=
  (reads_presentFields name).bind fun _ => .pure _

private theorem reads_selectFields (name index : Value) : Reads (selectFields name index) :=
  selectFields_eq name index ▸ reads_present _ name

private theorem reads_hasName (name : Value) : Reads (hasName name) := by
  rw [hasName_eq]
  apply Reads.run
  intro key found result left made
  cases made
  rfl

private theorem reads_fieldsOrNone (name : Value) : Reads (fieldsOrNone name) := by
  rw [fieldsOrNone_eq]
  apply Reads.run
  intro key found result left made
  cases found <;> cases made <;> rfl

private theorem reads_lastFieldOr (name default : Value) : Reads (lastFieldOr name default) := by
  rw [lastFieldOr_eq]
  apply Reads.run
  intro key found result left made
  cases found with
  | none =>
    cases made
    rfl
  | some fields => exact keeps_of_map made

private theorem reads_lastPairs : Reads lastPairs :=
  Reads.current.bind fun _ => .mapM (fun key => (reads_lastField key).bind fun _ => .pure _) _

private theorem reads_equals (operand : Operand) : Reads (equals operand) := by
  apply Reads.current.bind
  intro container
  cases operand with
  | container other => exact .pure _
  | plain value =>
    cases value with
    | mapping entries => exact reads_lastPairs.bind fun _ => .pure _
    | _ => exact .pure _

private theorem reads_valueOf (name default : Value) : Reads (valueOf name default) := by
  cases name with
  | codec identity =>
    exact (reads_fieldsOrNone _).bind fun _ => (Reads.compute _).bind fun _ => .pure _
  | _ => exact reads_lastFieldOr _ default

private theorem reads_valueOrField (name default : Value) : Reads (valueOrField name default) := by
  apply Reads.current.bind
  intro container
  split
  · exact reads_lastFieldOr name default
  · exact reads_valueOf name default

private theorem reads_noAttribute (name : String) : Reads (noAttribute name : Action α) :=
  Reads.current.bind fun _ => .throw _

private theorem reads_attribute? (name : String) : Reads (attribute? name) :=
  Reads.current.bind fun _ => .pure _

private theorem reads_attributeValue (name : String) : Reads (attributeValue name) := by
  apply (reads_attribute? name).bind
  intro declared
  split
  · exact reads_valueOf _ _
  · apply Reads.current.bind
    intro container
    split
    · exact .pure _
    · exact .pure _
    · exact reads_noAttribute name

private theorem reads_typeAttribute (name : String) : Reads (typeAttribute name) := by
  apply Reads.current.bind
  intro container
  apply (reads_attribute? name).bind
  intro declared
  split
  · exact .pure _
  · exact .pure _
  · exact .throw _

/-! ## Steps that make one change -/

namespace Single

theorem map {action : Action α} (single : Single action) (onOk : α → β) :
    Single (onOk <$> action) := by
  intro container
  rw [map_apply]
  exact (single container).map onOk

/-- Reading first adds no change. -/
theorem bind {action : Action α} {next : α → Action β} (reads : Reads action)
    (single : ∀ result, Single (next result)) : Single (action >>= next) := by
  intro container
  have same := reads container
  rw [bind_apply]
  rcases outcome : action container with ⟨error | result, after⟩ <;> rw [outcome] at same
  · exact same ▸ .failed error
  · change after = container at same
    subst same
    exact single result after

/-- A step that leaves an empty list only where it found one makes one change at most. -/
theorem run {effect : Effect α} (name : Value)
    (fills : ∀ key found result, effect key found = .ok (result, some []) → found = some []) :
    Single (effect.run name) := by
  intro container
  cases slot : container.profile.slot name with
  | error error =>
    rw [Effect.run_of_error slot]
    exact .failed error
  | ok key =>
    rw [Effect.run_of_ok slot]
    cases made : effect key (container.fields.find? key) with
    | error error => exact .failed error
    | ok outcome =>
      obtain ⟨result, left⟩ := outcome
      refine .done result (.assign slot left fun empty => ?_)
      subst empty
      exact fills _ _ _ made

private theorem keyFor_bind {name : Value} {next : Value → Action α}
    (ends : ∀ container key, container.profile.key name = .ok key →
      Ends container (next key container)) : Single (keyFor name >>= next) := by
  intro container
  rw [bind_apply, keyFor_apply]
  cases made : container.profile.key name with
  | error error => exact .failed error
  | ok key => exact ends container key made

end Single

private theorem settled_ne_nil (fields : List Value) : Effect.settled fields ≠ some [] := by
  intro empty
  obtain ⟨some, rfl⟩ := (Effect.settled_eq_some_iff _ _).mp empty
  exact some rfl

theorem single_setLast (name field : Value) : Single (setLast name field) := by
  rw [setLast_eq]
  apply Single.run
  intro key found result made
  split at made
  · cases made
  · simp at made

theorem single_addField (name field : Value) : Single (addField name field) := by
  rw [addField_eq]
  apply Single.run
  intro key found result made
  simp at made

private theorem single_eraseLast (name : Value) : Single (eraseLast name) := by
  rw [eraseLast_eq]
  apply Single.run
  intro key found result made
  cases found with
  | none => cases made
  | some fields =>
    simp only [Effect.present] at made
    split at made
    · cases made
    · simp [settled_ne_nil] at made

private theorem single_eraseName (name : Value) : Single (eraseName name) := by
  rw [eraseName_eq]
  apply Single.run
  intro key found result made
  cases found <;> cases made

private theorem single_eraseFields (name index : Value) : Single (eraseFields name index) := by
  rw [eraseFields_eq]
  apply Single.run
  intro key found result made
  cases found with
  | none => cases made
  | some fields =>
    simp only [Effect.present] at made
    cases left : (Selector.ofValue .list index).bind (remaining · fields) with
    | error error => simp [left, Except.map] at made
    | ok left' => simp [left, Except.map, settled_ne_nil] at made

private theorem single_takeLastOr (name : Value) (default : Option Value) :
    Single (takeLastOr name default) := by
  rw [takeLastOr_eq]
  apply Single.run
  intro key found result made
  cases found with
  | none => cases default <;> cases made
  | some fields =>
    simp only at made
    cases last : lastOf fields <;> simp [last, Except.map, settled_ne_nil] at made

private theorem single_lastOrAdd (name field : Value) : Single (lastOrAdd name field) := by
  rw [lastOrAdd_eq]
  apply Single.run
  intro key found result made
  cases found with
  | none => simp at made
  | some fields => exact (keeps_of_map made).symm

private theorem single_takeFromFirst : Single takeFromFirst := by
  apply Single.bind Reads.current
  intro container
  cases container.fields.keys with
  | nil => exact (Reads.throw _).single
  | cons key keys =>
    have single : Single (takeLast key) := single_takeLastOr key none
    change Single (do let field ← takeLast key; pure (key, field))
    rw [bind_pure_comp]
    exact single.map _

/-! ## Typed access -/

private theorem ends_requireDigest_bind {container : Container} {name key : Value}
    (made : container.profile.key name = .ok key) {next : Action α}
    (ends : container.profile.slot name = .ok key → Ends container (next container)) :
    Ends container ((do compute (requireDigest key); next) container) := by
  rw [bind_apply, compute_apply]
  cases digest : requireDigest key with
  | error error => exact .failed error
  | ok _ => exact ends ((slot_eq_ok_iff ..).mpr ⟨made, digest⟩)

private theorem ends_discard {container : Container} {name key : Value}
    (made : container.profile.key name = .ok key) : Ends container (discard key container) := by
  rw [discard, bind_apply_of_ok (current_apply container)]
  split
  · exact .done () .none
  · exact ends_requireDigest_bind made fun slot => .done () (.assign slot none (by simp))

private theorem single_removeHeader (identity : Value) : Single (removeHeader identity) :=
  .keyFor_bind fun _ _ made => ends_discard made

private theorem single_setValue (identity value : Value) : Single (setValue identity value) := by
  apply Single.keyFor_bind
  intro container key made
  rw [bind_apply, compute_apply]
  cases encoded identity value with
  | error error => exact .failed error
  | ok data =>
    exact ends_requireDigest_bind made fun slot =>
      .done () (.assign slot (some [.octets data]) (by simp))

private theorem single_replaceFields (name fields : Value) :
    Single (replaceFields name fields) := by
  apply Single.bind (.compute _)
  intro items
  apply Single.bind (.compute _)
  intro data
  apply Single.keyFor_bind
  intro container key made
  split
  · exact ends_discard made
  · rename_i given
    refine ends_requireDigest_bind made fun slot =>
      .done () (.assign slot (some (data.map .octets)) fun empty => ?_)
    exact (given (by simpa using empty)).elim

private theorem single_attach (attached : Container → List (String × Value)) :
    Single (modify fun container => { container with attached := attached container } :
      Action Unit) :=
  fun _ => .done () (.attach _)

private theorem single_setAttribute (name : String) (value : Value) :
    Single (setAttribute name value) := by
  apply Single.bind (reads_attribute? name)
  intro declared
  split
  · split
    · exact single_removeHeader _
    · exact single_setValue _ _
  · exact single_attach _

private theorem single_eraseAttribute (name : String) : Single (eraseAttribute name) := by
  apply Single.bind (reads_attribute? name)
  intro declared
  split
  · exact single_removeHeader _
  · apply Single.bind .current
    intro container
    split
    · exact .bind (reads_noAttribute name) fun _ => single_attach _
    · exact single_attach _

/-! ## Filling positions -/

/-- An operation that leaves a name without a field that had one: a series that takes in all positions
of the name is filled with nothing. -/
inductive Operation.Vacates (container : Container) : Operation → Value → Prop
  | fill {name index value key : Value} {fields : List Value} {start stop : Option Int}
      (slot : container.profile.slot name = .ok key)
      (found : container.fields.find? key = some fields) (filled : fields ≠ [])
      (series : Selector.ofValue .list index = .ok (.series start stop 1))
      (all : ∀ i < fields.length, i ∈ Selector.positions fields.length start stop 1)
      (nothing : value.items? = some []) : Vacates container (.assignFields name index value) key

/-- Adjacent positions are all that there are if they begin with the first and end with the last. -/
private theorem covers_iff {count : Nat} (positive : 0 < count) (start stop : Option Int) :
    (∀ i < count, i ∈ Selector.positions count start stop 1) ↔
      (Selector.bounds count start stop 1).1 = 0 ∧ (Selector.bounds count start stop 1).2 = count := by
  obtain ⟨first, last, inside⟩ := Selector.bounds_one count start stop
  simp only [Selector.mem_positions_one_iff]
  constructor
  · intro all
    have atFirst := all 0 positive
    have atLast := all (count - 1) (by omega)
    omega
  · rintro ⟨first, last⟩ i inRange
    omega

private theorem assigned_adjacent_eq_nil_iff {fields : List Value} (filled : fields ≠ [])
    (start stop : Option Int) (value : Value) :
    assigned (.series start stop 1) value fields = .ok [] ↔
      (∀ i < fields.length, i ∈ Selector.positions fields.length start stop 1) ∧
        value.items? = some [] := by
  obtain ⟨first, last, inside⟩ := Selector.bounds_one fields.length start stop
  have spliced (items : List Value) :
      spliceAt (Selector.bounds fields.length start stop 1).1.toNat
          (Selector.bounds fields.length start stop 1).2.toNat items fields = [] ↔
        items = [] ∧ (Selector.bounds fields.length start stop 1).1 = 0 ∧
          (Selector.bounds fields.length start stop 1).2 = fields.length := by
    rw [spliceAt_eq_nil_iff]
    simp only [filled, or_false]
    refine and_congr_right fun _ => ?_
    omega
  rw [covers_iff (List.length_pos_iff.mpr filled)]
  simp only [assigned, ↓reduceIte, bind, Except.bind, pure, Except.pure]
  cases items : value.items? with
  | none => simp [fillers, items]
  | some items' =>
    simp only [fillers, items, Except.ok.injEq, spliced, Option.some.injEq]
    exact and_comm

/-- Positions that are not adjacent are filled with as many fields as there were. -/
private theorem assigned_spaced_ne_nil {fields : List Value} (filled : fields ≠ [])
    {start stop : Option Int} {step : Int} (spaced : step ≠ 1) (value : Value) :
    assigned (.series start stop step) value fields ≠ .ok [] := by
  intro left
  simp only [assigned, spaced, ↓reduceIte, bind, Except.bind] at left
  cases items : fillers true value with
  | error error => simp [items] at left
  | ok items' =>
    simp only [items] at left
    split at left
    · cases left
    · have length := congrArg List.length (Except.ok.inj left)
      rw [length_fillAt] at length
      exact filled (List.length_eq_zero_iff.mp length)

/-- Of fields some are left, unless adjacent positions that are all there are give way to nothing. -/
theorem assigned_eq_nil_iff {fields : List Value} (filled : fields ≠ []) (selector : Selector)
    (value : Value) :
    assigned selector value fields = .ok [] ↔ ∃ start stop, selector = .series start stop 1 ∧
      (∀ i < fields.length, i ∈ Selector.positions fields.length start stop 1) ∧
      value.items? = some [] := by
  cases selector with
  | index i =>
    rw [assigned]
    cases Selector.position? fields.length i <;> simp [filled]
  | series start stop step =>
    by_cases one : step = 1
    · subst one
      rw [assigned_adjacent_eq_nil_iff filled]
      constructor
      · exact fun all => ⟨start, stop, rfl, all⟩
      · rintro ⟨_, _, ⟨⟩, all⟩
        exact all
    · refine iff_of_false (assigned_spaced_ne_nil filled one value) ?_
      rintro ⟨_, _, ⟨⟩, -⟩
      exact one rfl

/-- Filling positions ends like any other step, unless it leaves a name without a field. -/
theorem ends_assignFields (name index value : Value) (container : Container) :
    Ends container (assignFields name index value container) ∨
      ∃ key, Operation.Vacates container (.assignFields name index value) key := by
  rw [assignFields_eq]
  cases slot : container.profile.slot name with
  | error error =>
    rw [Effect.run_of_error slot]
    exact .inl (.failed error)
  | ok key =>
    rw [Effect.run_of_ok slot]
    cases found : container.fields.find? key with
    | none => exact .inl (.failed _)
    | some fields =>
      simp only [Effect.present]
      cases left : (Selector.ofValue .list index).bind (assigned · value fields) with
      | error error => exact .inl (.failed error)
      | ok left' =>
        -- A filled list that is left empty is the one exception.
        by_cases vacated : left' = [] ∧ fields ≠ []
        · obtain ⟨rfl, filled⟩ := vacated
          cases chosen : Selector.ofValue .list index with
          | error error => simp [chosen, Except.bind] at left
          | ok selector =>
            simp only [chosen, Except.bind, assigned_eq_nil_iff filled] at left
            obtain ⟨start, stop, rfl, all, nothing⟩ := left
            exact .inr ⟨key, .fill slot found filled chosen all nothing⟩
        · refine .inl (.done () (.assign slot (some left') fun empty => ?_))
          cases fields with
          | nil => exact found
          | cons first rest => exact (vacated ⟨Option.some.inj empty, List.cons_ne_nil _ _⟩).elim

/-! ## The operations -/

private theorem ends_silently {action : Action Unit} {container : Container}
    (ends : Ends container (action container)) : Ends container (silently action container) := by
  rw [silently_apply]
  exact ends.map _

private theorem single_onHeaders {action : Action Value} (single : Single action) (name : String) :
    Single (onHeaders name action) := by
  apply Single.bind .current
  intro container
  split
  · exact (reads_noAttribute name).single
  · exact single

/-- The operations other than a merge, which makes several changes. -/
def Operation.IsSingle (operation : Operation) : Prop :=
  ∀ operand named, operation ≠ .merge operand named

/-- What is left of a name whose fields all give way to nothing. -/
theorem perform_of_vacates {operation : Operation} {container : Container} {key : Value}
    (vacates : operation.Vacates container key) :
    perform operation container = (.ok .null, container.assign key (some [])) := by
  cases vacates with
  | @fill name index value _ fields start stop slot found filled series all nothing =>
    have left : assigned (.series start stop 1) value fields = .ok [] :=
      (assigned_eq_nil_iff filled _ _).mpr ⟨start, stop, rfl, all, nothing⟩
    rw [perform, Operation.action, silently_apply, assignFields_eq, Effect.run_of_ok slot, found]
    simp only [Effect.present, series, Except.bind, left, Except.map, leave]

/-- Any operation but a merge fails and leaves the container as it was, or gives a result and makes one
change, or else it leaves a name without a field. -/
theorem perform_cases {operation : Operation} (isSingle : operation.IsSingle)
    (container : Container) :
    Ends container (perform operation container) ∨
      ∃ key, operation.Vacates container key := by
  have silent {action : Action Unit} (single : Single action) : Single (silently action) :=
    fun container => ends_silently (single container)
  unfold perform
  cases operation with
  | assignFields name index value =>
    rw [Operation.action]
    exact (ends_assignFields name index value container).imp_left ends_silently
  | merge operand named => exact (isSingle operand named rfl).elim
  | valueOf name default => exact .inl ((reads_valueOrField name default).single container)
  | setValue identity value =>
    exact .inl (single_onHeaders (silent (single_setValue identity value)) _ container)
  | removeHeader identity =>
    exact .inl (single_onHeaders (silent (single_removeHeader identity)) _ container)
  | fieldsOrNone name =>
    exact .inl (single_onHeaders ((reads_fieldsOrNone name).map _).single _ container)
  | replaceFields name fields =>
    exact .inl (single_onHeaders (silent (single_replaceFields name fields)) _ container)
  | presentFields name => exact .inl (((reads_presentFields name).map _).single container)
  | eraseName name => exact .inl (silent (single_eraseName name) container)
  | countFields name =>
    exact .inl ((((reads_countFields name).bind fun _ => .pure _).map _).single container)
  | selectFields name index => exact .inl ((reads_selectFields name index).single container)
  | eraseFields name index => exact .inl (silent (single_eraseFields name index) container)
  | addField name field => exact .inl (silent (single_addField name field) container)
  | takeLast name default => exact .inl (single_takeLastOr name default container)
  | takeFromFirst => exact .inl (single_takeFromFirst.map _ container)
  | lastOrAdd name field => exact .inl (single_lastOrAdd name field container)
  | clear => exact .inl (silent (fun _ => .done () .clear) container)
  | lastField name => exact .inl ((reads_lastField name).single container)
  | setLast name field => exact .inl (silent (single_setLast name field) container)
  | eraseLast name => exact .inl (silent (single_eraseLast name) container)
  | hasName name => exact .inl (((reads_hasName name).map _).single container)
  | equals operand => exact .inl (((reads_equals operand).map _).single container)
  | differs operand => exact .inl (((reads_equals operand).map _).single container)
  | hash => exact .inl ((Reads.current.bind fun _ => .throw _).single container)
  | size => exact .inl ((Reads.current.bind fun _ => .pure _).single container)
  | isNonempty => exact .inl ((Reads.current.bind fun _ => .pure _).single container)
  | printed => exact .inl (((Reads.current.bind fun _ => .compute _).map _).single container)
  | names => exact .inl ((Reads.current.bind fun _ => .pure _).single container)
  | lastFields => exact .inl ((reads_lastPairs.bind fun _ => .pure _).single container)
  | lastPairs => exact .inl ((reads_lastPairs.bind fun _ => .pure _).single container)
  | allPairs =>
    exact .inl ((Reads.current.bind fun _ => (Reads.compute _).bind fun _ => .pure _).single container)
  | attributeValue name => exact .inl ((reads_attributeValue name).single container)
  | setAttribute name value => exact .inl (silent (single_setAttribute name value) container)
  | eraseAttribute name => exact .inl (silent (single_eraseAttribute name) container)
  | typeAttribute name => exact .inl ((reads_typeAttribute name).single container)

end TypedHeaders.Container
