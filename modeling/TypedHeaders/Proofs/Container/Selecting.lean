import TypedHeaders.Proofs.Container.Soundness
import TypedHeaders.Proofs.Selector.Positions

/-! # Fields at an index or at a series of positions

Reading, erasing and assigning all select the same positions of the fields of a name: an index selects
the position that it counts up to, and a slice those of its series. What is read are the fields at these
positions, what is left by erasing are the fields at all others, and what is assigned is read there
afterwards while the fields at all others stay. An index that counts up to no position and a slice with
a step of zero fail for all three and change nothing.
-/

namespace TypedHeaders.Container

variable {container : Container} {name key index : Value} {fields : List Value}

/-- A name that is present, with its key and the fields found there. -/
structure Present (container : Container) (name key : Value) (fields : List Value) : Prop where
  slot : container.profile.slot name = .ok key
  found : container.fields.find? key = some fields

/-- The operations that take an index or a slice of the fields of a name. -/
inductive Operation.TakesIndex (name index : Value) : Operation → Prop
  | select : TakesIndex name index (.selectFields name index)
  | erase : TakesIndex name index (.eraseFields name index)
  | assign (value : Value) : TakesIndex name index (.assignFields name index value)

/-- That erasing leaves the fields at all positions but these, in their order, and the name exactly if
there are any. -/
def ErasesAt (container : Container) (name key index : Value) (fields : List Value)
    (positions : List Nat) : Prop :=
  ∃ rest : List Value,
    rest.map some = ((List.range fields.length).filter (· ∉ positions)).map (fields[·]?) ∧
    let after := container.assign key (Effect.settled rest)
    perform (.eraseFields name index) container = (.ok .null, after) ∧
      perform (.hasName name) after = (.ok (.boolean (!rest.isEmpty)), after)

/-- That assigning a value puts some items in at these positions and leaves the fields at all others,
and that the items are read there afterwards. -/
def AssignsAt (container : Container) (name key index : Value) (fields : List Value)
    (positions : List Nat) (value : Value) (items : List Value) (read : Value) : Prop :=
  ∃ fields' : List Value, fields'.length = fields.length ∧
    positions.map (fields'[·]?) = items.map some ∧
    (∀ position, position ∉ positions → fields'[position]? = fields[position]?) ∧
    let after := container.assign key (some fields')
    perform (.assignFields name index value) container = (.ok .null, after) ∧
      perform (.selectFields name index) after = (.ok read, after)

/-- The three operations on the one position that an index selects. -/
structure AgreesOnPosition (container : Container) (name key index : Value) (fields : List Value)
    (position : Nat) : Prop where
  select : ∃ field, fields[position]? = some field ∧
    perform (.selectFields name index) container = (.ok field, container)
  erase : ErasesAt container name key index fields [position]
  assign : ∀ value, AssignsAt container name key index fields [position] value [value] value

/-- The three operations on the positions that a slice with a step selects. With a step of one any
number of fields can be put in place of those that were there, so nothing is said of it. -/
structure AgreesOnSeries (container : Container) (name key index : Value) (fields : List Value)
    (step : Int) (positions : List Nat) : Prop where
  select : ∃ items, items.map some = positions.map (fields[·]?) ∧
    perform (.selectFields name index) container = (.ok (.list items), container)
  erase : ErasesAt container name key index fields positions
  assign : step ≠ 1 → ∀ value items, value.items? = some items → items.length = positions.length →
    AssignsAt container name key index fields positions value items (.list items)

/-! ## The operations on a name that is present -/

namespace Present

/-- A present name stays present when its list is replaced. -/
theorem assign (present : Present container name key fields) (fields' : List Value) :
    Present (container.assign key (some fields')) name key fields' where
  slot := present.slot
  found := MultiMap.find?_put_of_found present.found fields'

/-! Each of the operations is a step on the fields that the selector of the index determines. -/

theorem perform_select (present : Present container name key fields) (index : Value) :
    perform (.selectFields name index) container =
      container.leave key
        (((Selector.ofValue .list index).bind (selected · fields)).map (·, some fields)) := by
  have run := perform_on present.slot (.selectFields index)
  rw [present.found] at run
  exact run

theorem perform_erase (present : Present container name key fields) (index : Value) :
    perform (.eraseFields name index) container =
      container.leave key (((Selector.ofValue .list index).bind (remaining · fields)).map
        fun fields => (.null, Effect.settled fields)) := by
  have run := perform_on present.slot (.eraseFields index)
  rw [present.found] at run
  exact run

theorem perform_assign (present : Present container name key fields) (index value : Value) :
    perform (.assignFields name index value) container =
      container.leave key (((Selector.ofValue .list index).bind (assigned · value fields)).map
        fun fields => (.null, some fields)) := by
  have run := perform_on present.slot (.assignFields index value)
  rw [present.found] at run
  exact run

/-- Selecting reads the fields and changes nothing. -/
theorem select {selector : Selector} (present : Present container name key fields)
    (chosen : Selector.ofValue .list index = .ok selector) :
    perform (.selectFields name index) container = (selected selector fields, container) := by
  rw [present.perform_select, chosen, ← present.found, leave_found]
  rfl

/-- What selects nothing in any list fails for all three operations with the same error. -/
theorem failed {error : Error} {operation : Operation}
    (present : Present container name key fields)
    (refused : Selector.ofValue .list index = .error error)
    (takes : operation.TakesIndex name index) :
    perform operation container = (.error error, container) := by
  cases takes with
  | select =>
    rw [present.perform_select, refused]
    rfl
  | erase =>
    rw [present.perform_erase, refused]
    rfl
  | assign value =>
    rw [present.perform_assign, refused]
    rfl

/-- An index that counts up to no position fails for all three operations. -/
theorem failed_of_outside {i : Int} {operation : Operation}
    (present : Present container name key fields) (whole : index.whole? = some i)
    (outside : i < -fields.length ∨ fields.length ≤ i) (takes : operation.TakesIndex name index) :
    ∃ cause, perform operation container = (.error (.outOfBounds cause), container) := by
  have chosen := Selector.ofValue_of_whole whole .list
  split at chosen
  · exact ⟨.tooLarge, present.failed chosen takes⟩
  · have nowhere := Selector.position?_eq_none outside
    cases takes with
    | select =>
      refine ⟨.reading .list, ?_⟩
      rw [present.select chosen, selected, nowhere]
      rfl
    | erase =>
      refine ⟨.writing, ?_⟩
      rw [present.perform_erase, chosen, Except.bind, remaining, nowhere]
      rfl
    | assign value =>
      refine ⟨.writing, ?_⟩
      rw [present.perform_assign, chosen, Except.bind, assigned, nowhere]
      rfl

/-- Where the fields off some positions remain, the fields at these positions are erased. -/
theorem erasesAt {selector : Selector} {positions : List Nat}
    (present : Present container name key fields)
    (chosen : Selector.ofValue .list index = .ok selector)
    (left : remaining selector fields = .ok (itemsOff positions fields)) :
    ErasesAt container name key index fields positions := by
  refine ⟨itemsOff positions fields, itemsOff_map_some positions fields, ?_, ?_⟩
  · rw [present.perform_erase, chosen, Except.bind, left]
    rfl
  generalize itemsOff positions fields = rest
  have same : (key == key) = true := beq_self_of_requireDigest ((slot_eq_ok_iff ..).mp present.slot).2
  have slot : (container.assign key (Effect.settled rest)).profile.slot name = .ok key :=
    present.slot
  have there : (container.assign key (Effect.settled rest)).fields.find? key =
      Effect.settled rest := MultiMap.find?_assign_self same _ _
  rw [perform, Operation.action, map_apply, hasName_apply slot, there]
  cases rest <;> rfl

/-- Where assigning fills the positions that selecting reads, the new items can be read back. -/
theorem assignsAt {selector : Selector} {positions : List Nat} {value read : Value}
    {items : List Value} (present : Present container name key fields)
    (chosen : Selector.ofValue .list index = .ok selector)
    (distinct : positions.Nodup) (inside : ∀ position ∈ positions, position < fields.length)
    (fitting : items.length = positions.length)
    (made : assigned selector value fields = .ok (fillAt positions items fields))
    (reads : ∀ fields' : List Value, fields'.length = fields.length →
      positions.map (fields'[·]?) = items.map some → selected selector fields' = .ok read) :
    AssignsAt container name key index fields positions value items read := by
  have length := length_fillAt positions items fields
  have filled := map_getElem?_fillAt distinct inside fitting
  refine ⟨fillAt positions items fields, length, filled,
    fun position apart => getElem?_fillAt_of_not_mem apart items fields, ?_, ?_⟩
  · rw [present.perform_assign, chosen, Except.bind, made]
    rfl
  · rw [(present.assign _).select chosen, reads _ length filled]

/-- A whole index reads, fills and erases the one position that it names. -/
theorem agreesOnPosition {i : Int} {position : Nat} (present : Present container name key fields)
    (fits : fields.length ≤ countLimit) (whole : index.whole? = some i)
    (names : Selector.Names fields.length i position) :
    AgreesOnPosition container name key index fields position := by
  have inside := names.inside
  have here := Selector.position?_eq_some_of_names names
  have chosen : Selector.ofValue .list index = .ok (.index i) := by
    have inRange : ¬ (i < -countLimit ∨ countLimit ≤ i) := by
      cases names <;> omega
    rw [Selector.ofValue_of_whole whole, if_neg inRange]
  have found : fields[position]? = some fields[position] := List.getElem?_eq_getElem inside
  refine ⟨⟨fields[position], found, ?_⟩, present.erasesAt chosen ?_, fun value => ?_⟩
  · rw [present.select chosen, selected, here, Option.bind_some, found]
  · simp only [remaining, here, eraseIdx_eq_itemsOff]
  · apply present.assignsAt chosen (List.nodup_singleton position)
    · exact List.forall_mem_singleton.mpr inside
    · rfl
    · rw [assigned, here]
      rfl
    · intro fields' length filled
      have value' : fields'[position]? = some value := (List.cons.inj filled).1
      rw [selected, length, here, Option.bind_some, value']

/-- A series reads, fills and erases the same positions, in the same order. -/
theorem agreesOnSeries {start stop : Option Int} {step : Int}
    (present : Present container name key fields) (nonzero : step ≠ 0)
    (chosen : Selector.ofValue .list index = .ok (.series start stop step)) :
    AgreesOnSeries container name key index fields step
      (Selector.chosen fields.length start stop step) := by
  have inside : ∀ position ∈ Selector.chosen fields.length start stop step,
      position < fields.length := fun position member =>
    ((Selector.mem_chosen_iff ..).mp member).1
  refine ⟨⟨itemsAt (Selector.chosen fields.length start stop step) fields,
    itemsAt_map_some inside, ?_⟩, present.erasesAt chosen ?_, fun spaced value items yields fitting => ?_⟩
  · rw [present.select chosen, selected, Selector.positions_eq_chosen nonzero]
  · rw [remaining, Selector.positions_eq_chosen nonzero]
  · apply present.assignsAt chosen (Selector.nodup_chosen ..) inside fitting
    · simp only [assigned, spaced, ↓reduceIte, fillers, yields, bind, Except.bind,
        Selector.positions_eq_chosen nonzero, fitting, ne_eq, not_true_eq_false]
      rfl
    · intro fields' length filled
      have inside' : ∀ position ∈ Selector.chosen fields.length start stop step,
          position < fields'.length := fun position member => length ▸ inside position member
      have items' := (itemsAt_map_some inside').trans filled
      rw [selected, length, Selector.positions_eq_chosen nonzero,
        List.map_injective_iff.mpr (Option.some_injective Value) items']

end Present

/-- What an index or a slice selects from the fields of a name is the same for reading, erasing and
assigning, and what selects nothing fails for all three and changes nothing. No list is longer than its
positions can be counted. -/
theorem indexed_operations_agree (present : Present container name key fields)
    (fits : fields.length ≤ countLimit) :
    (∀ index i, index.whole? = some i →
      (∀ position, Selector.Names fields.length i position →
        AgreesOnPosition container name key index fields position) ∧
      (i < -fields.length ∨ fields.length ≤ i →
        ∀ operation : Operation, operation.TakesIndex name index →
          ∃ cause, perform operation container = (.error (.outOfBounds cause), container))) ∧
    ∀ start stop step start' stop' step', Selector.IsBound start start' →
      Selector.IsBound stop stop' → Selector.IsBound step step' →
      (step'.getD 1 ≠ 0 →
        AgreesOnSeries container name key (.slice start stop step) fields (step'.getD 1)
          (Selector.chosen fields.length start' stop' (step'.getD 1))) ∧
      (step' = some 0 →
        ∀ operation : Operation, operation.TakesIndex name (.slice start stop step) →
          perform operation container = (.error (.badValue .zeroStep), container)) := by
  refine ⟨fun index i whole => ⟨fun position names => ?_, fun outside operation takes => ?_⟩,
    fun start stop step start' stop' step' isStart isStop isStep => ⟨fun nonzero => ?_, ?_⟩⟩
  · exact present.agreesOnPosition fits whole names
  · exact present.failed_of_outside whole outside takes
  · exact present.agreesOnSeries nonzero (Selector.ofValue_slice isStart isStop isStep nonzero .list)
  · rintro rfl operation takes
    exact present.failed (Selector.ofValue_slice_of_zero isStep start stop .list) takes

theorem indexed_operations_agree_backwards :
    let container := after ([97, 98, 99, 100].map fun data =>
      .addField (.text "Via") (.octets [data])) (.new .common)
    let fields : List Value := [97, 98, 99, 100].map fun data => .octets [data]
    let name := Value.text "VIA"
    Present container name (.text "via") fields ∧
      AgreesOnPosition container name (.text "via") (.integer (-1)) fields 3 ∧
      (∃ cause, perform (.eraseFields name (.integer 4)) container =
        (.error (.outOfBounds cause), container)) ∧
      AgreesOnSeries container name (.text "via") (.slice (.integer 9) .null (.integer (-2))) fields
        (-2) [3, 1] ∧
      perform (.selectFields name (.slice .null .null (.integer 0))) container =
        (.error (.badValue .zeroStep), container) := by
  intro container fields name
  have present : Present container name (.text "via") fields := ⟨rfl, rfl⟩
  have last : Selector.Names fields.length (-1) 3 := @Selector.Names.fromEnd 4 3 (by decide)
  obtain ⟨single, series⟩ := indexed_operations_agree present (by decide)
  refine ⟨present, (single (.integer (-1)) (-1) rfl).1 3 last,
    (single (.integer 4) 4 rfl).2 (.inr (by decide)) _ .erase,
    (series (.integer 9) .null (.integer (-2)) _ _ _ (.whole rfl) .missing (.whole rfl)).1
      (by decide), ?_⟩
  exact (series .null .null (.integer 0) _ _ _ .missing .missing (.whole rfl)).2 rfl _ .select

end TypedHeaders.Container
