import TypedHeaders.Proofs.Codec.Reading
import TypedHeaders.Proofs.Container.OnName
import TypedHeaders.Proofs.Session

/-! # Typed access to one header

The value of a header is stored, looked up and cleared through its codec or through an attribute that
has this codec, and both ways are the same. What was stored is looked up in its normal form, whatever
the header held before, and no other header takes part. A value that the codec refuses changes
nothing, and looking never fails on bytes.
-/

namespace TypedHeaders

namespace Container

/-! ## The two ways to a header -/

/-- The operations that store a value as the only field of a codec's header. -/
inductive Operation.Stores (attributes : List (String × Option Codec)) (codec : Codec)
    (value : Value) : Operation → Prop
  | identity : Stores attributes codec value (.setValue (.codec codec) value)
  | typed {name : String} (declared : attributes.lookup name = some (some codec))
      (something : value ≠ .null) : Stores attributes codec value (.setAttribute name value)

/-- The operations that take a codec's header away. -/
inductive Operation.Clears (attributes : List (String × Option Codec)) (codec : Codec) :
    Operation → Prop
  | identity : Clears attributes codec (.removeHeader (.codec codec))
  | erased {name : String} (declared : attributes.lookup name = some (some codec)) :
      Clears attributes codec (.eraseAttribute name)
  | nothing {name : String} (declared : attributes.lookup name = some (some codec)) :
      Clears attributes codec (.setAttribute name .null)

/-- The operations that look up the value of a codec's header, with a default. -/
inductive Operation.Looks (attributes : List (String × Option Codec)) (codec : Codec) :
    Value → Operation → Prop
  | identity (default : Value) : Looks attributes codec default (.valueOf (.codec codec) default)
  | typed {name : String} (declared : attributes.lookup name = some (some codec)) :
      Looks attributes codec .null (.attributeValue name)

section Ways

variable {typeName : String} {attributes : List (String × Option Codec)} {codec : Codec}
  {container : Container} {key : Value}

private theorem attribute?_bind_apply {α : Type} {name : String} {found : Option (Option Codec)}
    (isHeaders : container.profile = .headers typeName attributes)
    (declared : attributes.lookup name = found) (next : Option (Option Codec) → Action α) :
    (attribute? name >>= next) container = next found container := by
  rw [attribute?, bind_assoc, bind_apply_of_ok (current_apply container), pure_bind, isHeaders,
    Profile.attributes, declared]

private theorem setAttribute_apply {name : String}
    (isHeaders : container.profile = .headers typeName attributes)
    (declared : attributes.lookup name = some (some codec)) {value : Value}
    (something : value ≠ .null) :
    setAttribute name value container = setValue (.codec codec) value container := by
  rw [setAttribute, attribute?_bind_apply isHeaders declared]
  cases value with
  | null => exact (something rfl).elim
  | _ => rfl

/-- Both ways of storing put the encoded value in place of all fields, or fail as encoding does. -/
theorem Operation.Stores.perform_eq {value : Value} {operation : Operation}
    (stores : operation.Stores attributes codec value)
    (isHeaders : container.profile = .headers typeName attributes)
    (slot : container.profile.slot (.codec codec) = .ok key) :
    perform operation container =
      container.leave key ((codec.encode value).map fun data => (.null, some [.octets data])) := by
  have set : silently (Container.setValue (.codec codec) value) container =
      container.leave key ((codec.encode value).map fun data => (.null, some [.octets data])) := by
    rw [silently_apply, setValue_apply slot, leave_map, encoded]
    cases codec.encode value <;> rfl
  cases stores with
  | identity => rw [perform, action, onHeaders_apply (by simp [isHeaders]), set]
  | typed declared something =>
    rw [perform, action, silently_apply, setAttribute_apply isHeaders declared something,
      ← silently_apply, set]

/-- All ways of clearing take the name away. -/
theorem Operation.Clears.perform_eq {operation : Operation}
    (clears : operation.Clears attributes codec)
    (isHeaders : container.profile = .headers typeName attributes)
    (slot : container.profile.slot (.codec codec) = .ok key) :
    perform operation container = (.ok .null, container.assign key none) := by
  have remove : silently (Container.removeHeader (.codec codec)) container =
      (.ok .null, container.assign key none) := by
    rw [silently_apply, removeHeader_apply slot]
    rfl
  cases clears with
  | identity => rw [perform, action, onHeaders_apply (by simp [isHeaders]), remove]
  | erased declared =>
    rw [perform, action, silently_apply, Container.eraseAttribute,
      attribute?_bind_apply isHeaders declared, ← silently_apply, remove]
  | nothing declared =>
    rw [perform, action, silently_apply, Container.setAttribute,
      attribute?_bind_apply isHeaders declared, ← silently_apply, remove]

/-- Both ways of looking decode the fields that are there, and change nothing. -/
theorem Operation.Looks.perform_eq {default : Value} {operation : Operation}
    (looks : operation.Looks attributes codec default)
    (isHeaders : container.profile = .headers typeName attributes)
    (slot : container.profile.slot (.codec codec) = .ok key) :
    perform operation container =
      ((codec.decodeFields (container.fieldsOf key)).map fun reading =>
        reading.value.getD default, container) := by
  cases looks with
  | identity =>
    rw [perform, action, valueOrField, bind_apply_of_ok (current_apply container), isHeaders]
    exact valueOf_codec_apply slot default
  | typed declared =>
    rw [perform, action, Container.attributeValue, attribute?_bind_apply isHeaders declared]
    exact valueOf_codec_apply slot .null

end Ways

/-! ## Storing, looking and clearing -/

/-- Containers that agree in everything but the fields under a key: in all other names with their
fields, and in the order of these names. -/
structure AgreesApart (key : Value) (container after : Container) : Prop where
  profile : after.profile = container.profile
  attached : after.attached = container.attached
  fields : after.fields.erase key = container.fields.erase key

private theorem agreesApart_assign {key : Value} (isName : key.IsName)
    (values : Option (List Value))
    (container : Container) : AgreesApart key container (container.assign key values) :=
  ⟨rfl, rfl, MultiMap.erase_assign isName.beq_self values _⟩

private theorem fieldsOf_assign {key : Value} (isName : key.IsName) (values : Option (List Value))
    (container : Container) : (container.assign key values).fieldsOf key = values.getD [] := by
  rw [fieldsOf, assign, find?_assign_self isName]

/-- The key of a codec's header. -/
theorem exists_slot_codec {container : Container} {typeName : String}
    {attributes : List (String × Option Codec)}
    (isHeaders : container.profile = .headers typeName attributes) {codec : Codec}
    {header : String} (belongs : codec.header = some header) :
    ∃ key : Value, key.IsName ∧ container.profile.slot (.codec codec) = .ok key := by
  refine ⟨.text (String.ofList (Text.lower header.toList)), .inl ⟨_, rfl⟩, ?_⟩
  rw [slot_eq_ok_iff, isHeaders]
  simp only [Profile.key, belongs]
  exact ⟨rfl, rfl⟩

/-- What holds after a value was stored as the only field of a codec's header: the field is there under
each spelling of the name, its key has its old place or the last one, storing the value again changes
nothing, and looking gives the normal form of the value. -/
structure Stored (attributes : List (String × Option Codec)) (codec : Codec) (value : Value)
    (data : Octets) (key : Value) (container after : Container) : Prop where
  apart : AgreesApart key container after
  keys : after.fields.keys =
    if container.fields.contains key then container.fields.keys else container.fields.keys ++ [key]
  fields : ∀ name, container.profile.slot name = .ok key →
    perform (.fieldsOrNone name) after = (.ok (.tuple [.octets data]), after)
  again : ∀ operation : Operation, operation.Stores attributes codec value →
    perform operation after = (.ok .null, after)
  looked : ∃ normal log, codec.kind.normal? value = some normal ∧
    codec.decode (.octets data) = .ok ⟨some normal, log⟩ ∧
    ∀ (default : Value) (operation : Operation), operation.Looks attributes codec default →
      perform operation after = (.ok normal, after)

/-- What holds after a codec's header was taken away: the name is absent in each spelling, and looking
gives the default. -/
structure Cleared (attributes : List (String × Option Codec)) (codec : Codec) (key : Value)
    (container after : Container) : Prop where
  apart : AgreesApart key container after
  absent : ∀ name, container.profile.slot name = .ok key →
    perform (.hasName name) after = (.ok (.boolean false), after)
  looked : ∀ (default : Value) (operation : Operation), operation.Looks attributes codec default →
    perform operation after = (.ok default, after)

section Access

variable {typeName : String} {attributes : List (String × Option Codec)} {codec : Codec}
  {container : Container} {key value : Value} {operation : Operation}

/-- An operation that stores a value leaves its encoding as the only field of the name. -/
theorem Operation.Stores.stored (stores : operation.Stores attributes codec value)
    (family : codec.kind ≠ .abstract)
    (isHeaders : container.profile = .headers typeName attributes) (isName : key.IsName)
    (slot : container.profile.slot (.codec codec) = .ok key) {data : Octets}
    (encoded : codec.encode value = .ok data) :
    ∃ after, perform operation container = (.ok .null, after) ∧
      Stored attributes codec value data key container after := by
  let after := container.assign key (some [.octets data])
  have fieldsOf : after.fieldsOf key = [.octets data] := fieldsOf_assign isName _ container
  -- An assignment changes the fields and not the profile, so names have the same keys as before.
  have isHeaders' : after.profile = .headers typeName attributes := isHeaders
  have slot' : after.profile.slot (.codec codec) = .ok key := slot
  refine ⟨after, ?_, ?_, ?_, ?_, ?_, ?_⟩
  · rw [stores.perform_eq isHeaders slot, encoded]
    rfl
  · exact agreesApart_assign isName _ container
  · exact MultiMap.keys_put key _ container.fields
  · intro name slot
    have slot : after.profile.slot name = .ok key := slot
    rw [perform, action, onHeaders_apply (by simp [isHeaders']), map_apply,
      fieldsOrNone_apply slot, fieldsOf]
    rfl
  · intro again stores
    have found : after.fields.find? key = some [.octets data] := find?_assign_self isName _ _
    rw [stores.perform_eq isHeaders' slot', encoded, Except.map, leave, ← found,
      assign_find?]
  · obtain ⟨normal, log, same, decoded⟩ := Codec.decode_encode family encoded
    refine ⟨normal, log, same, decoded, fun default look looks => ?_⟩
    have only : codec.decodeFields [.octets data] = codec.decode (.octets data) := rfl
    rw [looks.perform_eq isHeaders' slot', fieldsOf, only, decoded]
    rfl

/-- An operation that clears a codec leaves its name without fields. -/
theorem Operation.Clears.cleared (clears : operation.Clears attributes codec)
    (isHeaders : container.profile = .headers typeName attributes) (isName : key.IsName)
    (slot : container.profile.slot (.codec codec) = .ok key) :
    ∃ after, perform operation container = (.ok .null, after) ∧
      Cleared attributes codec key container after := by
  let after := container.assign key none
  have isHeaders' : after.profile = .headers typeName attributes := isHeaders
  have slot' : after.profile.slot (.codec codec) = .ok key := slot
  refine ⟨after, clears.perform_eq isHeaders slot, agreesApart_assign isName _ container, ?_, ?_⟩
  · intro name slot
    have slot : after.profile.slot name = .ok key := slot
    have absent : after.fields.find? key = none := find?_assign_self isName _ _
    rw [perform, action, map_apply, hasName_apply slot, absent]
    rfl
  · intro default look looks
    rw [looks.perform_eq isHeaders' slot', fieldsOf_assign isName]
    rfl

/-- Fields of bytes look like what the only one decodes to, and otherwise like the default. -/
theorem Operation.Looks.looked {default : Value} (looks : operation.Looks attributes codec default)
    (family : codec.kind ≠ .abstract)
    (isHeaders : container.profile = .headers typeName attributes)
    (slot : container.profile.slot (.codec codec) = .ok key) {fields : List Octets}
    (held : container.fieldsOf key = fields.map .octets) :
    (∀ data value log, fields = [data] → codec.decode (.octets data) = .ok ⟨some value, log⟩ →
        perform operation container = (.ok value, container)) ∧
      ((∀ data value log, fields = [data] →
          codec.decode (.octets data) ≠ .ok ⟨some value, log⟩) →
        perform operation container = (.ok default, container)) := by
  rw [looks.perform_eq isHeaders slot, held]
  match fields with
  | [] => exact ⟨by simp, fun _ => rfl⟩
  | _ :: _ :: _ => exact ⟨by simp, fun _ => rfl⟩
  | [data] =>
    obtain ⟨⟨value?, log⟩, decoded⟩ := Codec.exists_decode_octets family data
    have only : codec.decodeFields [.octets data] = codec.decode (.octets data) := rfl
    rw [List.map_singleton, only, decoded]
    constructor
    · rintro _ value _ ⟨⟩ same
      cases decoded.symm.trans same
      rfl
    · intro nothing
      cases value? with
      | none => rfl
      | some value => exact (nothing data value log rfl decoded).elim

end Access

/-- In every run that starts with headers, whatever these hold by then: a codec with a name, or an
attribute with this codec, gives access to one header. Storing a value that is encoded makes it the
only field, storing one that is refused changes nothing, and clearing takes the header away. Fields of
bytes look like what the only one decodes to, and like the default if there are none or several or if
nothing comes out. -/
theorem typed_access_of_run (typeName : String) (attributes : List (String × Option Codec))
    (register : String) (steps : List (String × Session.Step)) {target : String}
    {container : Container} (found : ((Session.start (.headers typeName attributes) register).run
      steps).container? target = some container)
    {codec : Codec} (family : codec.kind ≠ .abstract) {header : String}
    (belongs : codec.header = some header) :
    ∃ key, container.profile.slot (.codec codec) = .ok key ∧
      (∀ (value : Value) (operation : Operation), operation.Stores attributes codec value →
        (∀ data, codec.encode value = .ok data →
          ∃ after, perform operation container = (.ok .null, after) ∧
            Stored attributes codec value data key container after) ∧
        ∀ refusal, codec.encode value = .error refusal →
          perform operation container = (.error refusal, container)) ∧
      (∀ operation : Operation, operation.Clears attributes codec →
        ∃ after, perform operation container = (.ok .null, after) ∧
          Cleared attributes codec key container after) ∧
      ∀ fields : List Octets, container.fieldsOf key = fields.map .octets →
        ∀ (default : Value) (operation : Operation), operation.Looks attributes codec default →
          (∀ data value log, fields = [data] →
            codec.decode (.octets data) = .ok ⟨some value, log⟩ →
            perform operation container = (.ok value, container)) ∧
          ((∀ data value log, fields = [data] →
              codec.decode (.octets data) ≠ .ok ⟨some value, log⟩) →
            perform operation container = (.ok default, container)) := by
  obtain ⟨isHeaders, -⟩ := ((Session.ofHeaders_start register).run steps).container? found
  obtain ⟨key, isName, slot⟩ := exists_slot_codec isHeaders belongs
  refine ⟨key, slot, fun value operation stores => ⟨fun data encoded => ?_, fun refusal refused => ?_⟩,
    fun operation clears => ?_, fun fields held default operation looks => ?_⟩
  · exact stores.stored family isHeaders isName slot encoded
  · rw [stores.perform_eq isHeaders slot, refused]
    rfl
  · exact clears.cleared isHeaders isName slot
  · exact looks.looked family isHeaders slot held

theorem typed_access_of_run_age : ∃ container : Container,
    ((Session.start .common "h").run
      [("h", .operate (.addField (.text "AGE") (.octets (.ofPhrase "x")))),
        ("h", .operate (.addField (.text "age") (.octets (.ofPhrase "7"))))]).container? "h" =
      some container ∧
    (perform (.valueOf (.codec .age) (.integer 1)) container).1 = .ok (.integer 1) ∧
    ∃ after, perform (.setAttribute "age" (.integer 5)) container = (.ok .null, after) ∧
      perform (.valueOf (.codec .age) (.integer 1)) after = (.ok (.integer 5), after) ∧
      ∃ cleared, perform (.eraseAttribute "age") container = (.ok .null, cleared) ∧
        perform (.attributeValue "age") cleared = (.ok .null, cleared) := by
  let container : Container :=
    ⟨.common, ⟨[(.text "age", [.octets (.ofPhrase "x"), .octets (.ofPhrase "7")])]⟩, []⟩
  have found : ((Session.start .common "h").run
      [("h", .operate (.addField (.text "AGE") (.octets (.ofPhrase "x")))),
        ("h", .operate (.addField (.text "age") (.octets (.ofPhrase "7"))))]).container? "h" =
      some container := rfl
  have declared : Profile.commonAttributes.lookup "age" = some (some .age) := rfl
  have family : Codec.age.kind ≠ .abstract := by decide
  have belongs : Codec.age.header = some "age" := rfl
  obtain ⟨key, slot, stores, clears, looks⟩ :=
    typed_access_of_run "Headers" Profile.commonAttributes "h" _ found family belongs
  obtain rfl : .text "age" = key := Except.ok.inj slot
  have held : container.fieldsOf (.text "age") = [.ofPhrase "x", .ofPhrase "7"].map .octets := rfl
  have several := (looks _ held (.integer 1) _ (.identity _)).2 (by simp)
  obtain ⟨after, performed, stored⟩ :=
    (stores (.integer 5) _ (.typed declared (by simp))).1 (.ofAscii (numeral 5)) rfl
  obtain ⟨_, -, ⟨⟩, -, looked⟩ := stored.looked
  obtain ⟨cleared, performed', clear⟩ := clears _ (.erased declared)
  exact ⟨container, found, congrArg Prod.fst several, after, performed,
    looked _ _ (.identity _), cleared, performed', clear.looked _ _ (.typed declared)⟩

end Container

end TypedHeaders
