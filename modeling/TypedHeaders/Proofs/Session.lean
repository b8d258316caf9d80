import TypedHeaders.Session
import TypedHeaders.Proofs.Container.Keys

/-! # Runs of sessions

A session that starts with headers holds nothing but headers, and the fields in every cell lie under
keys that names can have. Cells are shared and copied without regard to registers, so the invariant
is one on cells.
-/

namespace TypedHeaders.Session

/-- The session after steps, each on the container in a register. -/
def run (steps : List (String × Step)) (session : Session) : Session :=
  steps.foldl (fun session entry => (session.step entry.1 entry.2).2) session

/-- A session of headers of one type, all of whose fields lie under keys that names can have. -/
structure OfHeaders (typeName : String) (attributes : List (String × Option Codec))
    (session : Session) : Prop where
  registers : ∀ entry ∈ session.registers, entry.2.profile = .headers typeName attributes
  cells : ∀ fields ∈ session.cells, Container.KeyedAsHeaders fields

variable {typeName : String} {attributes : List (String × Option Codec)}

theorem ofHeaders_start (register : String) :
    OfHeaders typeName attributes (.start (.headers typeName attributes) register) where
  registers entry member := by
    rw [List.mem_singleton.mp member]
  cells fields member := by
    rw [List.mem_singleton.mp member]
    exact Container.keyedAsHeaders_empty

theorem mem_of_lookup {registers : List (String × Handle)} {register : String} {handle : Handle}
    (here : registers.lookup register = some handle) : (register, handle) ∈ registers := by
  obtain ⟨before, after, split, -⟩ := List.lookup_eq_some_iff.mp here
  simp [split]

theorem mem_assign {register : String} {handle : Handle}
    {registers : List (String × Handle)} {entry : String × Handle}
    (member : entry ∈ assign register handle registers) :
    entry ∈ registers ∨ entry = (register, handle) := by
  induction registers with
  | nil => exact .inr (List.mem_singleton.mp member)
  | cons first registers ih =>
    rw [assign] at member
    split at member
    · rcases List.mem_cons.mp member with rfl | member
      · exact .inr rfl
      · exact .inl (List.mem_cons_of_mem _ member)
    · rcases List.mem_cons.mp member with rfl | member
      · exact .inl (List.mem_cons_self ..)
      · exact (ih member).imp_left (List.mem_cons_of_mem _)

/-! ## Copies of headers -/

/-- A copy of headers, with values that are built anew in a deep copy. -/
def copyOf (mode : CopyMode) (place : Nat) (container : Container) : Except Error Container :=
  match mode with
  | .deep => .ok (container.copied place)
  | .listed | .shallow => relisted container

/-- Copying under a headers profile puts the copy of what the handle shows in the next free cell. -/
theorem copyTo_eq {handle : Handle} (isHeaders : handle.profile = .headers typeName attributes)
    (mode : CopyMode) (target : String) (session : Session) :
    session.copyTo mode target handle =
      (copyOf mode session.cells.length (session.shown handle)).map (session.putNew target) := by
  have shown : (session.shown handle).profile = .headers typeName attributes := isHeaders
  cases mode with
  | deep => rfl
  | listed | shallow =>
    simp only [copyTo, shown]
    rfl

/-- Every copy of headers has a cell of its own. -/
theorem copyOf_of_copyTo {session copied : Session} {mode : CopyMode} {target : String}
    {handle : Handle} (isHeaders : handle.profile = .headers typeName attributes)
    (copy : session.copyTo mode target handle = .ok copied) :
    ∃ container, copyOf mode session.cells.length (session.shown handle) = .ok container ∧
      session.putNew target container = copied := by
  rw [copyTo_eq isHeaders] at copy
  cases made : copyOf mode session.cells.length (session.shown handle) with
  | error error =>
    rw [made] at copy
    cases copy
  | ok container =>
    rw [made] at copy
    cases copy
    exact ⟨container, rfl, rfl⟩

namespace OfHeaders

variable {session : Session}

theorem shown (ofHeaders : OfHeaders typeName attributes session) (handle : Handle) :
    Container.KeyedAsHeaders (session.shown handle).fields := by
  simp only [Session.shown, List.getD_eq_getElem?_getD]
  cases found : session.cells[handle.cell]? with
  | none => exact Container.keyedAsHeaders_empty
  | some fields => exact ofHeaders.cells fields (List.mem_of_getElem? found)

/-- The container in a register is one of headers, under keys that names can have. -/
theorem container? (ofHeaders : OfHeaders typeName attributes session) {register : String}
    {container : Container} (found : session.container? register = some container) :
    container.profile = .headers typeName attributes ∧
      Container.KeyedAsHeaders container.fields := by
  obtain ⟨handle, here, rfl⟩ := Option.map_eq_some_iff.mp found
  exact ⟨ofHeaders.registers _ (mem_of_lookup here), ofHeaders.shown handle⟩

theorem putNew (ofHeaders : OfHeaders typeName attributes session) {register : String}
    {container : Container} (isHeaders : container.profile = .headers typeName attributes)
    (keyed : Container.KeyedAsHeaders container.fields) :
    OfHeaders typeName attributes (session.putNew register container) where
  registers entry member := by
    rcases mem_assign member with old | rfl
    · exact ofHeaders.registers entry old
    · exact isHeaders
  cells fields member := by
    rcases List.mem_append.mp member with old | new
    · exact ofHeaders.cells fields old
    · rw [List.mem_singleton.mp new]
      exact keyed

theorem store (ofHeaders : OfHeaders typeName attributes session) {register : String}
    {handle : Handle} {container : Container}
    (isHeaders : handle.profile = .headers typeName attributes)
    (keyed : Container.KeyedAsHeaders container.fields) :
    OfHeaders typeName attributes (session.store register handle container) where
  registers entry member := by
    rcases mem_assign member with old | rfl
    · exact ofHeaders.registers entry old
    · exact isHeaders
  cells fields member := by
    rcases List.mem_or_eq_of_mem_set member with old | rfl
    · exact ofHeaders.cells fields old
    · exact keyed

private theorem relisted {container copy : Container}
    (isHeaders : container.profile = .headers typeName attributes)
    (relisted : relisted container = .ok copy) :
    copy.profile = .headers typeName attributes ∧ Container.KeyedAsHeaders copy.fields := by
  unfold Session.relisted at relisted
  cases listed : container.listed with
  | error error =>
    rw [listed] at relisted
    cases relisted
  | ok pairs =>
    have changing := Container.Changing.forM
      (fun pair : Value × Value => (Container.single_addField pair.1 pair.2).changing) pairs
    have moves := Container.Changes.moves (changing (.new container.profile))
    rw [listed] at relisted
    simp only [Except.bind] at relisted
    rcases outcome : (pairs.forM fun pair => Container.addField pair.1 pair.2)
      (Container.new container.profile) with ⟨error | _, after⟩
    · rw [outcome] at relisted
      cases relisted
    · rw [outcome] at relisted moves
      cases relisted
      have same : (Container.new container.profile).profile = .headers typeName attributes :=
        isHeaders
      exact Container.keyedAsHeaders_empty.moves same moves

theorem copyTo (ofHeaders : OfHeaders typeName attributes session) {mode : CopyMode}
    {target : String} {handle : Handle} (isHeaders : handle.profile = .headers typeName attributes)
    {copied : Session} (copy : session.copyTo mode target handle = .ok copied) :
    OfHeaders typeName attributes copied := by
  obtain ⟨container, made, rfl⟩ := copyOf_of_copyTo isHeaders copy
  cases mode with
  | deep =>
    cases made
    exact ofHeaders.putNew isHeaders ((ofHeaders.shown handle).copied session.cells.length)
  | listed | shallow =>
    obtain ⟨isHeaders, keyed⟩ := relisted isHeaders made
    exact ofHeaders.putNew isHeaders keyed

private theorem operate (ofHeaders : OfHeaders typeName attributes session) (register : String)
    {handle : Handle} (isHeaders : handle.profile = .headers typeName attributes)
    (operation : Container.Operation) :
    OfHeaders typeName attributes (session.stepOn register handle (.operate operation)).2 := by
  obtain ⟨-, keyed⟩ := (ofHeaders.shown handle).moves isHeaders
    (Container.moves_perform operation (session.shown handle))
  cases operation with
  | clear => exact ofHeaders.putNew isHeaders Container.keyedAsHeaders_empty
  | _ => exact ofHeaders.store isHeaders keyed

/-- Every step of a session leaves each of its containers a headers container with sound keys. -/
theorem step (ofHeaders : OfHeaders typeName attributes session) (register : String)
    (step : Step) : OfHeaders typeName attributes (session.step register step).2 := by
  unfold Session.step
  cases found : session.registers.lookup register with
  | none => exact ofHeaders
  | some handle =>
    have isHeaders := ofHeaders.registers _ (mem_of_lookup found)
    cases step with
    | operate operation => exact ofHeaders.operate register isHeaders operation
    | create target => exact ofHeaders.putNew isHeaders Container.keyedAsHeaders_empty
    | copy mode target =>
      simp only [stepOn]
      cases copy : session.copyTo mode target handle with
      | error error => exact ofHeaders
      | ok copied => exact ofHeaders.copyTo isHeaders copy
    | write sink => exact ofHeaders

/-- The same of a whole run, by induction on its steps. -/
theorem run (ofHeaders : OfHeaders typeName attributes session) (steps : List (String × Step)) :
    OfHeaders typeName attributes (session.run steps) := by
  induction steps generalizing session with
  | nil => exact ofHeaders
  | cons entry steps ih => exact ih (ofHeaders.step entry.1 entry.2)

end OfHeaders

end TypedHeaders.Session
