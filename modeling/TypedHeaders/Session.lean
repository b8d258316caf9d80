import TypedHeaders.Container.Operation

/-! # Sessions

Several containers side by side, each in a register. Registers hold handles: two of them may show
the same fields, and then a change through one shows through the other until either is cleared. A
shallow copy of a plain container shares its fields in this way, whereas every copy of headers has
its own.
-/

namespace TypedHeaders

/-- A container of a session: its fields lie in a cell that others may share. -/
structure Handle where
  profile : Profile
  attached : List (String × Value)
  cell : Nat

/-- Cells of fields in the order in which they were made, and the handles in use. -/
structure Session where
  cells : List Fields
  registers : List (String × Handle)

namespace Session

def start (profile : Profile) (register : String) : Session :=
  ⟨[.empty], [(register, ⟨profile, [], 0⟩)]⟩

def shown (session : Session) (handle : Handle) : Container :=
  ⟨handle.profile, session.cells.getD handle.cell .empty, handle.attached⟩

def container? (session : Session) (register : String) : Option Container :=
  (session.registers.lookup register).map session.shown

/-- Registers with a handle put into one of them. -/
def assign (register : String) (handle : Handle) :
    List (String × Handle) → List (String × Handle)
  | [] => [(register, handle)]
  | entry :: rest =>
    if entry.1 = register then (register, handle) :: rest
    else entry :: assign register handle rest

def put (register : String) (handle : Handle) (session : Session) : Session :=
  { session with registers := assign register handle session.registers }

/-- The session with a container of its own cell in a register. -/
def putNew (register : String) (container : Container) (session : Session) : Session :=
  { cells := session.cells ++ [container.fields]
    registers := assign register ⟨container.profile, container.attached, session.cells.length⟩
      session.registers }

def store (register : String) (handle : Handle) (container : Container) (session : Session) :
    Session :=
  { cells := session.cells.set handle.cell container.fields
    registers := assign register { handle with attached := container.attached }
      session.registers }

inductive CopyMode where
  /-- The method of headers: every field again, in the order in which fields are listed. -/
  | listed
  /-- What the container makes of a request for a shallow copy. -/
  | shallow
  /-- Everything as it is, but built anew. -/
  | deep
deriving DecidableEq, Repr

inductive Step where
  | operate (operation : Container.Operation)
  | create (target : String)
  | copy (mode : CopyMode) (target : String)
  | write (sink : Sink)

/-- What a step gives: a result or an error, and the data written if it writes. -/
structure Outcome where
  result : Except Error Value
  written : Option Octets

/-- Every field of a container added again, in the order in which fields are listed. -/
def relisted (container : Container) : Except Error Container :=
  container.listed.bind fun pairs =>
    let adding := pairs.forM fun pair => Container.addField pair.1 pair.2
    let (outcome, copy) := adding (Container.new container.profile)
    outcome.map fun _ => copy

/-- The session with a copy of a container in another register. -/
def copyTo (mode : CopyMode) (target : String) (handle : Handle) (session : Session) :
    Except Error Session :=
  let container := session.shown handle
  match mode, container.profile with
  | .deep, _ => .ok (session.putNew target (container.copied session.cells.length))
  | .shallow, .plain => .ok (session.put target handle)
  | .listed, .plain =>
    .error (.noAttribute (.ofObject container.profile.typeName "copy"))
  | _, .headers .. => (relisted container).map fun copy => session.putNew target copy

/-- The step of a session on the container that a handle in a register shows. -/
def stepOn (register : String) (handle : Handle) (session : Session) (step : Step) :
    Outcome × Session :=
  match step with
  | .operate .clear =>
    (⟨.ok .null, none⟩,
      session.putNew register { session.shown handle with fields := .empty })
  | .operate operation =>
    let (result, container) := Container.perform operation (session.shown handle)
    (⟨result, none⟩, session.store register handle container)
  | .create target => (⟨.ok .null, none⟩, session.putNew target (.new handle.profile))
  | .copy mode target =>
    match session.copyTo mode target handle with
    | .ok session => (⟨.ok (.boolean true), none⟩, session)
    | .error error => (⟨.error error, none⟩, session)
  | .write sink =>
    let (outcome, sink) := (session.shown handle).write sink
    (⟨outcome.map fun _ => .null, some sink.contents⟩, session)

/-- A step on the container in a register, which has to be there. -/
def step (register : String) (session : Session) (step : Step) : Outcome × Session :=
  match session.registers.lookup register with
  | some handle => session.stepOn register handle step
  | none => (⟨.error (.missing (some (.text register))), none⟩, session)

/-- The fields in every register, name by name in the order of their first appearance. -/
def state (session : Session) : List (String × List (Value × List Value)) :=
  session.registers.map fun entry => (entry.1, (session.shown entry.2).fields.entries)

end Session

end TypedHeaders
