import TypedHeaders.Container.Wire

/-! # Operations on a container

Everything that can be asked of one container or done to it, as data. Performing an operation gives
its result, or the error for which it failed, together with the container as it is afterwards.
-/

namespace TypedHeaders.Container

/-- A question to a container or a change of it. -/
inductive Operation where
  | valueOf (name default : Value)
  | setValue (identity value : Value)
  | removeHeader (identity : Value)
  | fieldsOrNone (name : Value)
  | replaceFields (name fields : Value)
  | presentFields (name : Value)
  | eraseName (name : Value)
  | countFields (name : Value)
  | selectFields (name index : Value)
  | assignFields (name index value : Value)
  | eraseFields (name index : Value)
  | addField (name field : Value)
  | takeLast (name : Value) (default : Option Value)
  | takeFromFirst
  | lastOrAdd (name field : Value)
  | clear
  | merge (operand : Option Operand) (named : List (String × Value))
  | lastField (name : Value)
  | setLast (name field : Value)
  | eraseLast (name : Value)
  | hasName (name : Value)
  | equals (operand : Operand)
  | differs (operand : Operand)
  | hash
  | size
  | isNonempty
  | printed
  | names
  | lastFields
  | lastPairs
  | allPairs
  | attributeValue (name : String)
  | setAttribute (name : String) (value : Value)
  | eraseAttribute (name : String)
  | typeAttribute (name : String)

def pairValue (pair : Value × Value) : Value := .tuple [pair.1, pair.2]

/-- An action that gives nothing. -/
def silently (action : Action Unit) : Action Value := do
  action
  pure .null

/-- An action that only headers know, under a name. -/
def onHeaders (name : String) (action : Action Value) : Action Value := do
  match (← current).profile with
  | .plain => noAttribute name
  | .headers .. => action

/-- The value under a name: of headers the typed value, of a plain container the last field. -/
def valueOrField (name default : Value) : Action Value := do
  match (← current).profile with
  | .plain => lastFieldOr name default
  | .headers .. => valueOf name default

/-- The result of an operation, as a step on the container. -/
def Operation.action : Operation → Action Value
  | .valueOf name default => valueOrField name default
  | .setValue identity value => onHeaders "set" (silently (Container.setValue identity value))
  | .removeHeader identity => onHeaders "remove" (silently (Container.removeHeader identity))
  | .fieldsOrNone name => onHeaders "get_raw" (.tuple <$> Container.fieldsOrNone name)
  | .replaceFields name fields =>
    onHeaders "set_raw" (silently (Container.replaceFields name fields))
  | .presentFields name => .tuple <$> Container.presentFields name
  | .eraseName name => silently (Container.eraseName name)
  | .countFields name => (fun count => .integer count) <$> Container.countFields name
  | .selectFields name index => Container.selectFields name index
  | .assignFields name index value => silently (Container.assignFields name index value)
  | .eraseFields name index => silently (Container.eraseFields name index)
  | .addField name field => silently (Container.addField name field)
  | .takeLast name default => takeLastOr name default
  | .takeFromFirst => pairValue <$> Container.takeFromFirst
  | .lastOrAdd name field => Container.lastOrAdd name field
  | .clear => silently Container.clear
  | .merge operand named => silently (Container.merge operand named)
  | .lastField name => Container.lastField name
  | .setLast name field => silently (Container.setLast name field)
  | .eraseLast name => silently (Container.eraseLast name)
  | .hasName name => .boolean <$> Container.hasName name
  | .equals operand => .boolean <$> Container.equals operand
  | .differs operand => (fun equal => .boolean (!equal)) <$> Container.equals operand
  | .hash => do throw (.wrongType (.notHashable (← current).profile.typeName))
  | .size => do pure (.integer (← current).fields.size)
  | .isNonempty => do pure (.boolean ((← current).fields.size != 0))
  | .printed => do .text <$> compute (← current).printed
  | .names => do pure (.list (← current).fields.keys)
  | .lastFields => do pure (.list ((← Container.lastPairs).map Prod.snd))
  | .lastPairs => do pure (.list ((← Container.lastPairs).map pairValue))
  | .allPairs => do pure (.list ((← compute (← current).listed).map pairValue))
  | .attributeValue name => Container.attributeValue name
  | .setAttribute name value => silently (Container.setAttribute name value)
  | .eraseAttribute name => silently (Container.eraseAttribute name)
  | .typeAttribute name => Container.typeAttribute name

/-- The result of an operation and the container after it. -/
def perform (operation : Operation) (container : Container) : Except Error Value × Container :=
  operation.action container

end TypedHeaders.Container
