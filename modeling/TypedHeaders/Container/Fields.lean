import TypedHeaders.Container
import TypedHeaders.Selector

/-! # Steps on the fields of a container

The plain view of a container shows the last field under each name. Indexed steps reach the others.
Taking away the last field that a name has takes the name away, but a series of positions may be
filled with nothing, and then the name stays without a field.
-/

namespace TypedHeaders.Container

def lastOf (fields : List Value) : Except Error Value :=
  match fields.getLast? with
  | some field => .ok field
  | none => .error (.outOfBounds (.reading .list))

def lastField (name : Value) : Action Value := do
  let key ← slot name
  let fields ← fieldsAt key
  compute (lastOf fields)

/-- A field in place of the last one of a name, or as the first one. -/
def setLast (name field : Value) : Action Unit := do
  let key ← slot name
  let container ← current
  let fields := (container.fields.find? key).getD [.null]
  if fields.isEmpty then throw (.outOfBounds .writing)
  changeFields (·.put key (fields.dropLast ++ [field]))

def eraseLast (name : Value) : Action Unit := do
  let key ← slot name
  let fields ← fieldsAt key
  if fields.isEmpty then throw (.outOfBounds .writing)
  changeFields (·.settle key fields.dropLast)

def hasName (name : Value) : Action Bool := do
  let key ← slot name
  let container ← current
  pure (container.fields.contains key)

def presentFields (name : Value) : Action (List Value) := do
  let key ← slot name
  fieldsAt key

def eraseName (name : Value) : Action Unit := do
  let key ← slot name
  let _ ← fieldsAt key
  changeFields (·.erase key)

def countFields (name : Value) : Action Nat := do
  let fields ← presentFields name
  pure fields.length

/-- The fields of a name at an index, or those of a series of positions as a list. -/
def selectFields (name index : Value) : Action Value := do
  let fields ← presentFields name
  match ← compute (Selector.ofValue .list index) with
  | .index i =>
    match (Selector.position? fields.length i).bind (fields[·]?) with
    | some field => pure field
    | none => throw (.outOfBounds (.reading .list))
  | .series start stop step =>
    pure (.list (itemsAt (Selector.positions fields.length start stop step) fields))

/-- The items that fill a series of positions. -/
def fillers (spaced : Bool) (value : Value) : Except Error (List Value) :=
  match value.items? with
  | some items => .ok items
  | none => .error (.wrongType (.notAssignable spaced))

/-- Fields with a new one at an index, or with a series of positions filled anew. Adjacent
positions may be filled with more or fewer fields than there were. -/
def assigned (selector : Selector) (value : Value) (fields : List Value) :
    Except Error (List Value) :=
  match selector with
  | .index i =>
    match Selector.position? fields.length i with
    | some position => .ok (fields.set position value)
    | none => .error (.outOfBounds .writing)
  | .series start stop step =>
    if step = 1 then do
      let items ← fillers false value
      let (first, last) := Selector.bounds fields.length start stop step
      pure (spliceAt first.toNat last.toNat items fields)
    else do
      let items ← fillers true value
      let positions := Selector.positions fields.length start stop step
      if items.length ≠ positions.length then
        throw (.badValue (.lengthMismatch items.length positions.length))
      pure (fillAt positions items fields)

/-- A field at an index of a name, or fields at a series of positions. -/
def assignFields (name index value : Value) : Action Unit := do
  let key ← slot name
  let fields ← fieldsAt key
  let selector ← compute (Selector.ofValue .list index)
  let fields ← compute (assigned selector value fields)
  changeFields (·.put key fields)

/-- Fields without the one at an index, or without those at a series of positions. -/
def remaining (selector : Selector) (fields : List Value) : Except Error (List Value) :=
  match selector with
  | .index i =>
    match Selector.position? fields.length i with
    | some position => .ok (fields.eraseIdx position)
    | none => .error (.outOfBounds .writing)
  | .series start stop step =>
    .ok (itemsOff (Selector.positions fields.length start stop step) fields)

/-- Taking away the field at an index of a name, or those at a series of positions. -/
def eraseFields (name index : Value) : Action Unit := do
  let key ← slot name
  let fields ← fieldsAt key
  let selector ← compute (Selector.ofValue .list index)
  let fields ← compute (remaining selector fields)
  changeFields (·.settle key fields)

def addField (name field : Value) : Action Unit := do
  let key ← slot name
  let container ← current
  let fields := (container.fields.find? key).getD []
  changeFields (·.put key (fields ++ [field]))

def takeLast (name : Value) : Action Value := do
  let field ← lastField name
  eraseLast name
  pure field

/-- Taking out the last field of a name, where a default stands in for a name that is missing. -/
def takeLastOr (name : Value) : Option Value → Action Value
  | none => takeLast name
  | some default => ifMissing (takeLast name) (pure default)

/-- Taking out the last field of the first name, together with the name. -/
def takeFromFirst : Action (Value × Value) := do
  let container ← current
  match container.fields.keys with
  | [] => throw (.missing none)
  | key :: _ => do
    let field ← takeLast key
    pure (key, field)

/-- The last field of a name, which is first put there if the name is missing. -/
def lastOrAdd (name field : Value) : Action Value :=
  ifMissing (lastField name) do
    setLast name field
    pure field

/-- The last field of a name, or a default if the name is missing. -/
def lastFieldOr (name default : Value) : Action Value := ifMissing (lastField name) (pure default)

def clear : Action Unit := changeFields fun _ => .empty

def lastPairs : Action (List (Value × Value)) := do
  let container ← current
  container.fields.keys.mapM fun key => do
    let field ← lastField key
    pure (key, field)

/-- A key and a value out of what ought to be a pair. -/
def unpack (pair : Value) : Except Error (Value × Value) :=
  match pair.items? with
  | some [key, value] => .ok (key, value)
  | some (_ :: _ :: _ :: _) => .error (.badValue .tooManyParts)
  | some items => .error (.badValue (.tooFewParts items.length))
  | none => .error (.wrongType (.notUnpackable pair.typeName))

/-- What a container may be compared with or updated from. -/
inductive Operand where
  | plain (value : Value)
  | container (other : Container)

def setLasts (pairs : List (Except Error (Value × Value))) : Action Unit :=
  pairs.forM fun pair => do
    let (name, field) ← compute pair
    setLast name field

/-- The pairs that an operand has for a merge, each of which may fail on its own. From another
container only the last fields are taken. -/
def Operand.pairs : Operand → Except Error (List (Except Error (Value × Value)))
  | .container source =>
    .ok (source.fields.keys.map fun key => (lastField key source).1.map fun field => (key, field))
  | .plain (.mapping entries) => .ok (entries.map .ok)
  | .plain value => value.iterate.map fun pairs => pairs.map unpack

/-- Setting the last fields of the names that an operand has, and then of some more names. -/
def merge (operand : Option Operand) (named : List (String × Value)) : Action Unit := do
  match operand with
  | some operand => setLasts (← compute operand.pairs)
  | none => pure ()
  setLasts (named.map fun entry => .ok (.text entry.1, entry.2))

/-- Whether an operand is equal: a container with the same fields under the same names, or a
dictionary that agrees with the plain view. -/
def equals (operand : Operand) : Action Bool := do
  let container ← current
  match operand with
  | .container other => pure (container.fields.equal other.fields)
  | .plain (.mapping entries) => do
    let pairs ← lastPairs
    pure (Value.equal (Value.ofEntries pairs) (.mapping entries))
  | .plain _ => pure false

end TypedHeaders.Container
