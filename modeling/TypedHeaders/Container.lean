import TypedHeaders.MultiMap
import TypedHeaders.Name
import TypedHeaders.Value.Copy
import TypedHeaders.Value.Digest

/-! # Containers

A container keeps the raw fields of a message under their names. A plain container takes any key as
it is. A container of headers compares names in lower case, takes a codec for the name of its
header, and shows some headers as typed attributes.
-/

namespace TypedHeaders

/-- The fields under each name of a message, names in the order of their first appearance. -/
abbrev Fields := MultiMap Value Value

/-- What a container makes of its keys, and the attributes that it has beside its fields. -/
inductive Profile where
  | plain
  /-- Headers, with a name for their type and a codec for each typed attribute. An attribute
  without a codec is there but not typed. -/
  | headers (typeName : String) (attributes : List (String × Option Codec))

namespace Profile

/-- The typed attributes that headers have at first. -/
def commonAttributes : List (String × Option Codec) :=
  [("date", some .date), ("if_modified_since", some .ifModifiedSince),
   ("if_unmodified_since", some .ifUnmodifiedSince), ("max_forwards", some .maxForwards),
   ("age", some .age), ("retry_after", some .retryAfter), ("content_length", some .contentLength),
   ("expires", some .expires), ("last_modified", some .lastModified)]

def common : Profile := .headers "Headers" commonAttributes

/-- Headers with attributes put before the first ones, which they hide where the names agree. -/
def extended (typeName : String) (attributes : List (String × Option Codec)) : Profile :=
  .headers typeName (attributes ++ commonAttributes)

def typeName : Profile → String
  | .plain => "MultiDict"
  | .headers typeName _ => typeName

def attributes : Profile → List (String × Option Codec)
  | .plain => []
  | .headers _ attributes => attributes

/-- The key that a container keeps its fields under. -/
def key (profile : Profile) (name : Value) : Except Error Value :=
  match profile with
  | .plain => .ok name
  | .headers .. =>
    match name with
    | .codec identity =>
      match identity.header with
      | some header => Name.lower (.text header)
      | none => .error (.invalidValue (.nameless identity))
    | name => Name.lower name

end Profile

/-- Fields under their names, together with whatever else was attached to the container. -/
structure Container where
  profile : Profile
  fields : Fields
  /-- Values of attributes that have no codec. -/
  attached : List (String × Value)

namespace Container

def new (profile : Profile) : Container := ⟨profile, .empty, []⟩

/-- The deep copy of the container at a place. -/
def copied (place : Nat) (container : Container) : Container :=
  { container with
    fields := container.fields.map (Value.copied place) (Value.copied place)
    attached := container.attached.map fun entry => (entry.1, entry.2.copied place) }

/-- A step on a container. Changes made before a failure stay made. -/
abbrev Action := ExceptT Error (StateM Container)

def compute {α : Type} (outcome : Except Error α) : Action α := liftExcept outcome

def current : Action Container := get

def changeFields (change : Fields → Fields) : Action Unit :=
  modify fun container => { container with fields := change container.fields }

/-- A second action in place of one that fails because a name is missing. -/
def ifMissing {α : Type} (action alternative : Action α) : Action α :=
  tryCatch action fun error =>
    match error with
    | .missing _ => alternative
    | error => throw error

/-- A key has to have a digest to be looked up. -/
def requireDigest (key : Value) : Except Error Unit := key.hashed.map fun _ => ()

def keyFor (name : Value) : Action Value := do
  let container ← current
  compute (container.profile.key name)

/-- The key for a name that can be looked up. -/
def slot (name : Value) : Action Value := do
  let key ← keyFor name
  compute (requireDigest key)
  pure key

def fieldsAt (key : Value) : Action (List Value) := do
  let container ← current
  match container.fields.find? key with
  | some fields => pure fields
  | none => throw (.missing (some key))

end Container

end TypedHeaders
