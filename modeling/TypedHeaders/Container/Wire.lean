import TypedHeaders.Container.NameOrder
import TypedHeaders.Container.Typed
import TypedHeaders.Sink
import TypedHeaders.Value.Layout

/-! # Headers on the wire

Headers are written in the order of their names, one line for each field. The same order is used
wherever all fields are listed, so what is listed does not show in which order names came in.
-/

namespace TypedHeaders.Container

/-- The names in the order in which all fields are listed: sorted for headers, and as they came in
for a plain container. -/
def listedNames (container : Container) : Except Error (List Value) :=
  match container.profile with
  | .plain => .ok container.fields.keys
  | .headers .. => sortNames container.fields.keys

def fieldsOf (container : Container) (key : Value) : List Value :=
  (container.fields.find? key).getD []

/-- Every field with its name, in the order in which all fields are listed. -/
def listed (container : Container) : Except Error (List (Value × Value)) :=
  container.listedNames.map fun names =>
    names.flatMap fun name => (container.fieldsOf name).map (name, ·)

def line (label : Octets) (field : Value) : Except Error Octets :=
  match field with
  | .octets data | .buffer data => .ok (label ++ .ofPhrase ": " ++ data ++ [13, 10])
  | field => .error (.wrongType (.notJoinable .octets field.typeName))

/-- A step of writing. What a sink took before a failure stays written. -/
abbrev Writing := ExceptT Error (StateM Sink)

def writeLine (name : String) (label : Octets) (field : Value) : Writing Unit := do
  match line label field with
  | .error error => throw error
  | .ok data =>
    match (← get).write data with
    | .ok sink => set sink
    | .error fault => throw (fault.whileWriting name)

/-- Writing the lines of all fields of a name, whose label has to be ASCII even without fields. -/
def writeName (name : Value) (fields : List Value) : Writing Unit := do
  let label ← liftExcept (Name.label name)
  fields.forM (writeLine name.plain label)

def writing (container : Container) : Writing Unit := do
  let names ← liftExcept (sortNames container.fields.keys)
  names.forM fun name => writeName name (container.fieldsOf name)

/-- Writing all headers to a sink, which is left with what it took. -/
def write (container : Container) (sink : Sink) : Except Error Unit × Sink :=
  match container.profile with
  | .plain =>
    (.error (.noAttribute (.ofObject container.profile.typeName "write_to")), sink)
  | .headers .. => container.writing sink

/-- The laid out list with its brackets on lines of their own if it takes more than one line. -/
def framed (list : String) : String :=
  if list.contains '\n' then
    let inner := list.toList.drop 1 |>.dropLast
    "[\n " ++ String.ofList inner ++ "\n]"
  else list

/-- The container as messages print it: headers with all their fields. -/
def printed (container : Container) : Except Error String :=
  match container.profile with
  | .plain => .ok ("<" ++ container.profile.typeName ++ " object>")
  | .headers .. => do
    let pairs ← container.listed
    let list := Value.list (pairs.map fun pair => .tuple [pair.1, pair.2])
    list.printing
      (.ok ("<" ++ container.profile.typeName ++ "(" ++ framed (Layout.layout list) ++ ")>"))

end TypedHeaders.Container
