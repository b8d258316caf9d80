import TypedHeaders.Proofs.Session

/-! # Containers of a session are apart

Headers never share their fields: every container that a step makes has a cell of its own, also when
it is made as a copy. So no two registers show the same cell, and what is done in one register does
not show in another. Only a step on a register, or one that puts a container there, changes what it
shows.
-/

namespace TypedHeaders.Session

/-- The register that a step puts a container into, beside the one that it is a step on. -/
def Step.target? : Step → Option String
  | .create target | .copy _ target => some target
  | .operate _ | .write _ => none

def Spares (register : String) (entry : String × Step) : Prop :=
  entry.1 ≠ register ∧ entry.2.target? ≠ some register

/-- All cells in use are there, and different registers use different ones. -/
structure Separate (session : Session) : Prop where
  inRange : ∀ entry ∈ session.registers, entry.2.cell < session.cells.length
  apart : ∀ entry ∈ session.registers, ∀ other ∈ session.registers,
    entry.1 ≠ other.1 → entry.2.cell ≠ other.2.cell

variable {typeName : String} {attributes : List (String × Option Codec)}

/-! ## What a step does -/

/-- A step on headers leaves the session, makes a container for its register or its target, or changes
the container in its register. -/
inductive Becomes (session : Session) (register : String) (step : Step) : Session → Prop
  | same : Becomes session register step session
  | made {target : String} (container : Container)
      (there : target = register ∨ step.target? = some target) :
      Becomes session register step (session.putNew target container)
  | changed {handle : Handle} (container : Container)
      (here : session.registers.lookup register = some handle) :
      Becomes session register step (session.store register handle container)

/-- What one step does to a session of headers containers is one of the listed changes. -/
theorem OfHeaders.becomes {session : Session} (ofHeaders : OfHeaders typeName attributes session)
    (register : String) (step : Step) :
    session.Becomes register step (session.step register step).2 := by
  unfold Session.step
  cases here : session.registers.lookup register with
  | none => exact .same
  | some handle =>
    have isHeaders := ofHeaders.registers _ (mem_of_lookup here)
    cases step with
    | operate operation =>
      cases operation with
      | clear => exact .made _ (.inl rfl)
      | _ => exact .changed _ here
    | create target => exact .made _ (.inr rfl)
    | copy mode target =>
      simp only [stepOn]
      cases copy : session.copyTo mode target handle with
      | error error => exact .same
      | ok copied =>
        obtain ⟨container, -, rfl⟩ := copyOf_of_copyTo isHeaders copy
        exact .made container (.inr rfl)
    | write sink => exact .same

/-! ## Registers -/

private theorem lookup_assign (register : String) (handle : Handle)
    (registers : List (String × Handle)) (other : String) :
    (assign register handle registers).lookup other =
      if other = register then some handle else registers.lookup other := by
  induction registers with
  | nil =>
    by_cases same : other = register
    · simp [assign, same]
    · simp [assign, List.lookup_cons, same, beq_false_of_ne same]
  | cons entry registers ih =>
    rw [assign]
    by_cases first : entry.1 = register
    · rw [if_pos first, List.lookup_cons, List.lookup_cons, first]
      by_cases same : other = register
      · simp [same]
      · simp [same, beq_false_of_ne same]
    · rw [if_neg first, List.lookup_cons, List.lookup_cons, ih]
      by_cases same : other = register
      · simp [same, beq_false_of_ne (Ne.symm first)]
      · simp [same]

theorem container?_putNew (session : Session) (register : String) (container : Container) :
    (session.putNew register container).container? register = some container := by
  simp [container?, putNew, lookup_assign, shown]

namespace Separate

variable {session : Session}

theorem start (profile : Profile) (register : String) :
    (Session.start profile register).Separate where
  inRange entry member := by
    rw [List.mem_singleton.mp member]
    exact Nat.zero_lt_one
  apart entry member other member' ne := by
    rw [List.mem_singleton.mp member, List.mem_singleton.mp member'] at ne
    exact (ne rfl).elim

theorem putNew (separate : session.Separate) (register : String) (container : Container) :
    (session.putNew register container).Separate where
  inRange entry member := by
    rw [Session.putNew, List.length_append, List.length_singleton]
    rcases mem_assign member with old | rfl
    · exact Nat.lt_succ_of_lt (separate.inRange entry old)
    · exact Nat.lt_succ_self _
  apart entry member other member' ne := by
    rcases mem_assign member with old | rfl <;> rcases mem_assign member' with old' | rfl
    · exact separate.apart entry old other old' ne
    · exact Nat.ne_of_lt (separate.inRange entry old)
    · exact (Nat.ne_of_lt (separate.inRange other old')).symm
    · exact (ne rfl).elim

theorem store (separate : session.Separate) {register : String} {handle : Handle}
    (here : session.registers.lookup register = some handle) (container : Container) :
    (session.store register handle container).Separate where
  inRange entry member := by
    rw [Session.store, List.length_set]
    rcases mem_assign member with old | rfl
    · exact separate.inRange entry old
    · exact separate.inRange (register, handle) (mem_of_lookup here)
  apart entry member other member' ne := by
    have held := mem_of_lookup here
    rcases mem_assign member with old | rfl <;> rcases mem_assign member' with old' | rfl
    · exact separate.apart entry old other old' ne
    · exact separate.apart entry old (register, handle) held ne
    · exact separate.apart (register, handle) held other old' ne
    · exact (ne rfl).elim

/-- No change makes two handles share a cell. -/
theorem becomes (separate : session.Separate) {register : String} {step : Step} {after : Session}
    (becomes : session.Becomes register step after) : after.Separate := by
  cases becomes with
  | same => exact separate
  | made container => exact separate.putNew _ container
  | changed container here => exact separate.store here container

/-! ## What a step leaves -/

/-- A container put in a new cell is seen under its own register only. -/
theorem container?_putNew_of_ne (separate : session.Separate) {target register : String}
    (ne : target ≠ register) (container : Container) :
    (session.putNew target container).container? register = session.container? register := by
  rw [container?, container?, Session.putNew, lookup_assign, if_neg (Ne.symm ne)]
  cases here : session.registers.lookup register with
  | none => rfl
  | some handle =>
    have inRange := separate.inRange _ (mem_of_lookup here)
    simp only [Option.map_some, shown, List.getD_eq_getElem?_getD,
      List.getElem?_append_left inRange]

private theorem container?_store_of_ne (separate : session.Separate) {changed register : String}
    {handle : Handle} (changes : session.registers.lookup changed = some handle)
    (ne : changed ≠ register) (container : Container) :
    (session.store changed handle container).container? register = session.container? register := by
  rw [container?, container?, Session.store, lookup_assign, if_neg (Ne.symm ne)]
  cases here : session.registers.lookup register with
  | none => rfl
  | some other =>
    have apart := separate.apart _ (mem_of_lookup changes) _ (mem_of_lookup here) ne
    simp only [Option.map_some, shown, List.getD_eq_getElem?_getD, List.getElem?_set_ne apart]

/-- A step that spares a register leaves the container in it. -/
theorem container?_becomes (separate : session.Separate) {entry : String × Step} {after : Session}
    (becomes : session.Becomes entry.1 entry.2 after) {register : String}
    (spares : Spares register entry) : after.container? register = session.container? register := by
  cases becomes with
  | same => rfl
  | @made target container there =>
    have ne : target ≠ register := by
      rintro rfl
      rcases there with rfl | there
      · exact spares.1 rfl
      · exact spares.2 there
    exact separate.container?_putNew_of_ne ne container
  | changed container here => exact separate.container?_store_of_ne here spares.1 container

/-- Along a whole run no two handles ever share a cell, by induction on its steps. -/
theorem run (separate : session.Separate) (ofHeaders : OfHeaders typeName attributes session)
    (steps : List (String × Step)) : (session.run steps).Separate := by
  induction steps generalizing session with
  | nil => exact separate
  | cons entry steps ih =>
    exact ih (separate.becomes (ofHeaders.becomes ..)) (ofHeaders.step entry.1 entry.2)

/-- However long it is, a run of steps that spare a register leaves the container in it. -/
theorem container?_run (separate : session.Separate)
    (ofHeaders : OfHeaders typeName attributes session) {steps : List (String × Step)}
    {register : String} (spares : ∀ entry ∈ steps, Spares register entry) :
    (session.run steps).container? register = session.container? register := by
  induction steps generalizing session with
  | nil => rfl
  | cons entry steps ih =>
    obtain ⟨here, rest⟩ := List.forall_mem_cons.mp spares
    have becomes := ofHeaders.becomes entry.1 entry.2
    calc ((session.step entry.1 entry.2).2.run steps).container? register
        = (session.step entry.1 entry.2).2.container? register :=
          ih (separate.becomes becomes) (ofHeaders.step entry.1 entry.2) rest
      _ = session.container? register := separate.container?_becomes becomes here

end Separate

end TypedHeaders.Session
