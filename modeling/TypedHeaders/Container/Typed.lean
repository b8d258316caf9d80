import TypedHeaders.Codec.Decoding
import TypedHeaders.Codec.Encoding
import TypedHeaders.Container.Fields

/-! # Typed access to headers

Through a codec the fields of its header are read and written as one value. A header that is absent,
has several fields, or has one that cannot be read, reads as the default. Writing replaces all
fields of the header by one.
-/

namespace TypedHeaders.Container

def fieldsOrNone (name : Value) : Action (List Value) := ifMissing (presentFields name) (pure [])

/-- Taking away a name with all its fields, if it is there. -/
def discard (key : Value) : Action Unit := do
  let container ← current
  if container.fields.entries.isEmpty then pure ()
  else do
    compute (requireDigest key)
    changeFields (·.erase key)

/-- The fields of a name, each turned into bytes. Without fields the name goes. -/
def replaceFields (name fields : Value) : Action Unit := do
  let fields ← compute fields.iterate
  let fields ← compute (fields.mapM Value.bytes)
  let key ← keyFor name
  if fields.isEmpty then discard key
  else do
    compute (requireDigest key)
    changeFields (·.put key (fields.map .octets))

/-- The value of a header, or the last field of a name, with a default for what is not there. -/
def valueOf (name default : Value) : Action Value := do
  match name with
  | .codec identity => do
    let fields ← fieldsOrNone name
    let reading ← compute (identity.decodeFields fields)
    pure (reading.value.getD default)
  | name => lastFieldOr name default

/-- The field that holds a value, where only a codec can make one. -/
def encoded (identity value : Value) : Except Error Octets :=
  match identity with
  | .codec codec => codec.encode value
  | identity => .error (.noAttribute (.ofObject identity.typeName "value_encode"))

/-- A value as the only field of its header. -/
def setValue (identity value : Value) : Action Unit := do
  let key ← keyFor identity
  let data ← compute (encoded identity value)
  compute (requireDigest key)
  changeFields (·.put key [.octets data])

def removeHeader (identity : Value) : Action Unit := do
  let key ← keyFor identity
  discard key

/-- The codec of an attribute, if there is such an attribute and if it is typed. -/
def attribute? (name : String) : Action (Option (Option Codec)) := do
  let container ← current
  pure (container.profile.attributes.lookup name)

def noAttribute {α : Type} (name : String) : Action α := do
  let container ← current
  throw (.noAttribute (.ofObject container.profile.typeName name))

/-- The value of an attribute: that of its header, or else what was attached to the container. -/
def attributeValue (name : String) : Action Value := do
  match ← attribute? name with
  | some (some codec) => valueOf (.codec codec) .null
  | declared => do
    let container ← current
    match container.attached.lookup name, declared with
    | some value, _ => pure value
    | none, some _ => pure .null
    | none, none => noAttribute name

/-- A value for an attribute. Of a header, nothing takes the header away. -/
def setAttribute (name : String) (value : Value) : Action Unit := do
  match ← attribute? name with
  | some (some codec) =>
    match value with
    | .null => removeHeader (.codec codec)
    | value => setValue (.codec codec) value
  | _ =>
    modify fun container =>
      { container with
        attached := (name, value) :: container.attached.filter fun entry => entry.1 ≠ name }

/-- Taking away the header of an attribute, or what was attached to the container. -/
def eraseAttribute (name : String) : Action Unit := do
  match ← attribute? name with
  | some (some codec) => removeHeader (.codec codec)
  | _ => do
    let container ← current
    if (container.attached.lookup name).isNone then noAttribute name
    modify fun container =>
      { container with attached := container.attached.filter fun entry => entry.1 ≠ name }

/-- The codec of an attribute as the container's type shows it. -/
def typeAttribute (name : String) : Action Value := do
  let container ← current
  match ← attribute? name with
  | some (some codec) => pure (.codec codec)
  | some none => pure .null
  | none => throw (.noAttribute (.ofType container.profile.typeName name))

end TypedHeaders.Container
