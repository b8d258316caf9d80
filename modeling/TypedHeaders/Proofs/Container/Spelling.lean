import Mathlib.Data.List.Forall2
import TypedHeaders.Proofs.Container.Failure
import TypedHeaders.Proofs.Container.Keys
import TypedHeaders.Proofs.Container.OnName
import TypedHeaders.Proofs.Container.Presence

/-! # Spellings of names

Headers look a name up in lower case, and a codec under the name of its header. So two runs that spell
the same names differently cannot be told apart, neither by their results nor by the containers that
they leave.

Names in ASCII are moreover their own keys once they are in lower case. The keys of headers that are
only ever asked for such names are in lower case, no two of them differ in case alone, and each of
them finds the fields that are kept under it.
-/

namespace TypedHeaders.Container

/-- The names that headers look up under a key. -/
inductive Spells : Value → Value → Prop
  | text (name : String) : Spells (.text name) (.text (String.ofList (Text.lower name.toList)))
  | octets (data : Octets) : Spells (.octets data) (.octets data.lower)
  | identity {codec : Codec} {header : String} (belongs : codec.header = some header) :
      Spells (.codec codec) (.text (String.ofList (Text.lower header.toList)))

namespace Spells

variable {typeName : String} {attributes : List (String × Option Codec)} {name name' key : Value}

/-- A headers profile finds the slot of a spelling under its key. -/
theorem slot (spells : Spells name key) :
    (Profile.headers typeName attributes).slot name = .ok key := by
  rw [slot_eq_ok_iff]
  cases spells with
  | text => exact ⟨rfl, rfl⟩
  | octets => exact ⟨rfl, rfl⟩
  | identity belongs => simp only [Profile.key, belongs]; exact ⟨rfl, rfl⟩

private theorem typeName_eq (spells : Spells name key) (uncoded : ∀ codec, name ≠ .codec codec) :
    name.typeName = key.typeName := by
  cases spells with
  | text => rfl
  | octets => rfl
  | identity => exact (uncoded _ rfl).elim

end Spells

/-! ## Operations in other spellings -/

namespace NameOperation

/-- The operations for which a codec is more than a name: they decode or encode with it. -/
def IsTyped : NameOperation → Prop
  | .valueOf _ | .setValue _ => True
  | _ => False

private theorem valueEffect_of_uncoded {name : Value} (uncoded : ∀ codec, name ≠ .codec codec)
    (profile : Profile) (default : Value) :
    valueEffect profile name default = fun _ found =>
      match found with
      | some fields => (lastOf fields).map (·, some fields)
      | none => .ok (default, none) := by
  unfold valueEffect
  split
  · exact (uncoded _ rfl).elim
  · rfl

private theorem encoded_of_uncoded {name : Value} (uncoded : ∀ codec, name ≠ .codec codec)
    (value : Value) :
    encoded name value = .error (.noAttribute (.ofObject name.typeName "value_encode")) := by
  unfold encoded
  split
  · exact (uncoded _ rfl).elim
  · rfl

/-- An operation does the same under two spellings of a key, neither of them a codec if it is typed. -/
theorem effect_eq_of_spells {name name' key : Value} (spells : Spells name key)
    (spells' : Spells name' key) {operation : NameOperation}
    (uncoded : operation.IsTyped → ∀ codec, name ≠ .codec codec ∧ name' ≠ .codec codec)
    (profile : Profile) : operation.effect profile name = operation.effect profile name' := by
  cases operation with
  | valueOf default =>
    have uncoded := uncoded trivial
    simp only [effect, valueEffect_of_uncoded fun codec => (uncoded codec).1,
      valueEffect_of_uncoded fun codec => (uncoded codec).2]
  | setValue value =>
    have uncoded := uncoded trivial
    simp only [effect, encoded_of_uncoded fun codec => (uncoded codec).1,
      encoded_of_uncoded fun codec => (uncoded codec).2,
      spells.typeName_eq fun codec => (uncoded codec).1,
      spells'.typeName_eq fun codec => (uncoded codec).2]
  | _ => rfl

end NameOperation

/-- Pairs of a name and a field that differ at most in how the name is spelled. -/
inductive RespelledPair : Value → Value → Prop
  | same (pair : Value) : RespelledPair pair pair
  | name {pair pair' name name' key field : Value} (unpacks : unpack pair = .ok (name, field))
      (unpacks' : unpack pair' = .ok (name', field)) (spells : Spells name key)
      (spells' : Spells name' key) : RespelledPair pair pair'

/-- Operations that differ at most in how names are spelled. A codec may stand for a name where no
value is encoded or decoded. -/
inductive Operation.Respelled : Operation → Operation → Prop
  | same (operation : Operation) : Respelled operation operation
  | on {name name' key : Value} (operation : NameOperation) (spells : Spells name key)
      (spells' : Spells name' key)
      (uncoded : operation.IsTyped → ∀ codec, name ≠ .codec codec ∧ name' ≠ .codec codec) :
      Respelled (operation.on name) (operation.on name')
  | merge {pairs pairs' : List Value} (respelled : List.Forall₂ RespelledPair pairs pairs')
      (named : List (String × Value)) :
      Respelled (.merge (some (.plain (.list pairs))) named)
        (.merge (some (.plain (.list pairs'))) named)

section Respelling

variable {typeName : String} {attributes : List (String × Option Codec)} {container : Container}

theorem setLast_eq_of_spells (isHeaders : container.profile = .headers typeName attributes)
    {name name' key : Value} (spells : Spells name key) (spells' : Spells name' key)
    (field : Value) : setLast name field container = setLast name' field container := by
  have slot : container.profile.slot name = .ok key := isHeaders ▸ spells.slot
  have slot' : container.profile.slot name' = .ok key := isHeaders ▸ spells'.slot
  rw [setLast_eq, setLast_eq, Effect.run_of_ok slot, Effect.run_of_ok slot']

private theorem profile_setLast (name field : Value) (container : Container) :
    (setLast name field container).2.profile = container.profile :=
  ((single_setLast name field).changing container).moves.profile

private theorem setLasts_cons_congr {first first' : Except Error (Value × Value)}
    {rest rest' : List (Except Error (Value × Value))}
    (same : first = first' ∨ ∃ name name' field, first = .ok (name, field) ∧
      first' = .ok (name', field) ∧ setLast name field container = setLast name' field container)
    (others : ∀ after : Container, after.profile = container.profile →
      setLasts rest after = setLasts rest' after) :
    setLasts (first :: rest) container = setLasts (first' :: rest') container := by
  have set (name field : Value) : setLasts (.ok (name, field) :: rest) container =
      setLasts (.ok (name, field) :: rest') container := by
    have profile := profile_setLast name field container
    rw [setLasts_cons_of_ok, setLasts_cons_of_ok, bind_apply, bind_apply]
    generalize setLast name field container = outcome at profile ⊢
    rcases outcome with ⟨error | _, after⟩
    · rfl
    · exact others after profile
  rcases same with rfl | ⟨name, name', field, rfl, rfl, same⟩
  · rcases first with error | ⟨name, field⟩
    · rw [setLasts_cons_of_error, setLasts_cons_of_error]
    · exact set name field
  · rw [set name field, setLasts_cons_of_ok, setLasts_cons_of_ok, bind_apply, bind_apply, same]

/-- Setting fields under names in another spelling does the same, pair after pair. -/
theorem setLasts_eq_of_respelled {pairs pairs' : List Value}
    (respelled : List.Forall₂ RespelledPair pairs pairs')
    (named : List (Except Error (Value × Value)))
    (isHeaders : container.profile = .headers typeName attributes) :
    setLasts (pairs.map unpack ++ named) container =
      setLasts (pairs'.map unpack ++ named) container := by
  induction respelled generalizing container with
  | nil => rfl
  | cons first rest ih =>
    refine setLasts_cons_congr ?_ fun after profile => ih (profile.trans isHeaders)
    cases first with
    | same => exact .inl rfl
    | name unpacks unpacks' spells spells' =>
      exact .inr ⟨_, _, _, unpacks, unpacks', setLast_eq_of_spells isHeaders spells spells' _⟩

/-- Merging a list of pairs sets them, and then what is named besides. -/
theorem merge_list_eq (pairs : List Value) (named : List (String × Value)) :
    merge (some (.plain (.list pairs))) named =
      setLasts (pairs.map unpack ++ named.map fun entry => .ok (.text entry.1, entry.2)) := by
  rw [merge_eq]
  rfl

/-- One operation in another spelling has the same result and leaves the same container. -/
theorem Operation.Respelled.perform_eq {operation operation' : Operation}
    (respelled : operation.Respelled operation')
    (isHeaders : container.profile = .headers typeName attributes) :
    perform operation container = perform operation' container := by
  cases respelled with
  | same => rfl
  | on operation spells spells' uncoded =>
    have slot := isHeaders ▸ spells.slot
    have slot' := isHeaders ▸ spells'.slot
    rw [perform_on slot, perform_on slot', operation.effect_eq_of_spells spells spells' uncoded]
  | merge respelled named =>
    rw [perform, perform, Operation.action, Operation.action, silently_apply, silently_apply,
      merge_list_eq, merge_list_eq, setLasts_eq_of_respelled respelled _ isHeaders]

end Respelling

/-! ## Runs in other spellings -/

/-- The results of operations performed one after the other, each with the container it leaves. -/
def outcomes : List Operation → Container → List (Except Error Value × Container)
  | [], _ => []
  | operation :: rest, container =>
    let outcome := perform operation container
    outcome :: outcomes rest outcome.2

/-- Runs that differ in the spelling of names only have the same outcomes. -/
theorem outcomes_eq_of_respelled {operations operations' : List Operation}
    (respelled : List.Forall₂ Operation.Respelled operations operations')
    {typeName : String} {attributes : List (String × Option Codec)} {container : Container}
    (isHeaders : container.profile = .headers typeName attributes) :
    outcomes operations container = outcomes operations' container := by
  induction respelled generalizing container with
  | nil => rfl
  | @cons operation operation' _ _ first rest ih =>
    have profile := (moves_perform operation' container).profile
    rw [outcomes, outcomes, first.perform_eq isHeaders, ih (profile.trans isHeaders)]

/-! ## Names in ASCII -/

/-- Text in ASCII, the codec of a header that is named in ASCII, and bytes, which have case only where
they are ASCII. -/
inductive IsAsciiName : Value → Prop
  | text {name : String} (ascii : Text.IsAscii name.toList) : IsAsciiName (.text name)
  | octets (data : Octets) : IsAsciiName (.octets data)
  | identity {codec : Codec} {header : String} (belongs : codec.header = some header)
      (ascii : Text.IsAscii header.toList) : IsAsciiName (.codec codec)

/-- The operations on ASCII names, and the merges of lists of pairs with such names. -/
inductive Operation.NamedInAscii : Operation → Prop
  | on {name : Value} (ascii : IsAsciiName name) (operation : NameOperation) :
      NamedInAscii (operation.on name)
  | merge {pairs : List Value}
      (ascii : ∀ pair ∈ pairs, ∀ name field, unpack pair = .ok (name, field) → IsAsciiName name) :
      NamedInAscii (.merge (some (.plain (.list pairs))) [])

def InLower (key : Value) : Prop := Name.lower key = .ok key

private theorem inLower_text {name : String} (ascii : Text.IsAscii name.toList) :
    InLower (.text (String.ofList (Text.lower name.toList))) := by
  have small := Text.isAscii_map_toLower ascii
  rw [InLower, Text.lower_of_isAscii ascii, Name.lower, String.toList_ofList,
    Text.lower_of_isAscii small, Text.map_toLower_map_toLower ascii]

/-- An ASCII name is kept under a key in lower case. -/
theorem IsAsciiName.exists_key {name : Value} (ascii : IsAsciiName name) :
    ∃ key, Spells name key ∧ InLower key := by
  cases ascii with
  | text ascii => exact ⟨_, .text _, inLower_text ascii⟩
  | octets data => exact ⟨_, .octets data, by rw [InLower, Name.lower, Octets.lower_lower]⟩
  | identity belongs ascii => exact ⟨_, .identity belongs, inLower_text ascii⟩

section Lower

variable {typeName : String} {attributes : List (String × Option Codec)} {container : Container}

private theorem inLower_perform_on (isHeaders : container.profile = .headers typeName attributes)
    (lower : ∀ key ∈ container.fields.keys, InLower key) {name : Value} (ascii : IsAsciiName name)
    (operation : NameOperation) :
    ∀ key ∈ (perform (operation.on name) container).2.fields.keys, InLower key := by
  obtain ⟨key, spells, inLower⟩ := ascii.exists_key
  rw [perform_on_eq (isHeaders ▸ spells.slot)]
  exact MultiMap.forall_keys_assign lower inLower _

private theorem inLower_setLasts {pairs : List Value}
    (ascii : ∀ pair ∈ pairs, ∀ name field, unpack pair = .ok (name, field) → IsAsciiName name)
    (isHeaders : container.profile = .headers typeName attributes)
    (lower : ∀ key ∈ container.fields.keys, InLower key) :
    ∀ key ∈ (setLasts (pairs.map unpack) container).2.fields.keys, InLower key := by
  induction pairs generalizing container with
  | nil => exact lower
  | cons pair pairs ih =>
    obtain ⟨here, rest⟩ := List.forall_mem_cons.mp ascii
    rw [List.map_cons]
    rcases unpacks : unpack pair with error | ⟨name, field⟩
    · rw [setLasts_cons_of_error]
      exact lower
    · have set := inLower_perform_on isHeaders lower (here name field unpacks) (.setLast field)
      have profile := profile_setLast name field container
      rw [NameOperation.on, perform, Operation.action, silently_apply] at set
      rw [setLasts_cons_of_ok, bind_apply]
      generalize setLast name field container = outcome at set profile ⊢
      rcases outcome with ⟨error | _, after⟩
      · exact set
      · exact ih rest (profile.trans isHeaders) set

theorem Operation.NamedInAscii.inLower {operation : Operation} (named : operation.NamedInAscii)
    (isHeaders : container.profile = .headers typeName attributes)
    (lower : ∀ key ∈ container.fields.keys, InLower key) :
    ∀ key ∈ (perform operation container).2.fields.keys, InLower key := by
  cases named with
  | on ascii operation => exact inLower_perform_on isHeaders lower ascii operation
  | @merge pairs ascii =>
    have set := inLower_setLasts ascii isHeaders lower
    rw [perform, Operation.action, silently_apply, merge_list_eq, List.map_nil, List.append_nil]
    exact set

end Lower

/-- Operations on ASCII names keep the keys of headers in lower case. -/
theorem inLower_after {operations : List Operation}
    (named : ∀ operation ∈ operations, operation.NamedInAscii) {typeName : String}
    {attributes : List (String × Option Codec)} {container : Container}
    (isHeaders : container.profile = .headers typeName attributes)
    (lower : ∀ key ∈ container.fields.keys, InLower key) :
    ∀ key ∈ (after operations container).fields.keys, InLower key := by
  induction operations generalizing container with
  | nil => exact lower
  | cons operation operations ih =>
    obtain ⟨here, rest⟩ := List.forall_mem_cons.mp named
    have profile := (moves_perform operation container).profile
    exact ih rest (profile.trans isHeaders) (here.inLower isHeaders lower)

/-- A key in lower case finds what is kept under it. -/
theorem perform_presentFields_of_inLower {typeName : String}
    {attributes : List (String × Option Codec)} {container : Container}
    (isHeaders : container.profile = .headers typeName attributes)
    (keyed : KeyedAsHeaders container.fields) {entry : Value × List Value}
    (member : entry ∈ container.fields.entries) (lower : InLower entry.1) :
    perform (.presentFields entry.1) container = (.ok (.tuple entry.2), container) := by
  have isName : entry.1.IsName := keyed.isName (List.mem_map_of_mem member)
  have found := (keyed.mem_entries_iff isName entry.2).mp member
  have slot : container.profile.slot entry.1 = .ok entry.1 := by
    rw [isHeaders, slot_eq_ok_iff]
    rcases isName with ⟨name, eq⟩ | ⟨data, eq⟩ <;> rw [eq] at lower ⊢ <;> exact ⟨lower, rfl⟩
  have looked : presentFields entry.1 container = (.ok entry.2, container) := by
    rw [presentFields, bind_apply, slot_apply, slot]
    simp only [fieldsAt_apply, found]
  rw [perform, Operation.action, map_apply, looked]
  rfl

/-- Two runs on headers that differ only in how names are spelled have the same results and leave the
same containers, step by step. Where names are in ASCII, each key is in lower case and differs in more
than case from all others, and each key that the names are listed with finds the fields under it. -/
theorem outcomes_of_respelled (typeName : String) (attributes : List (String × Option Codec))
    {operations operations' : List Operation}
    (respelled : List.Forall₂ Operation.Respelled operations operations') :
    (∀ start : Container, start.profile = .headers typeName attributes →
        outcomes operations start = outcomes operations' start) ∧
      ((∀ operation ∈ operations, operation.NamedInAscii) →
        let container := after operations (.new (.headers typeName attributes))
        (∀ key ∈ container.fields.keys, Name.lower key = .ok key) ∧
          (container.fields.keys.Pairwise fun key other => Name.lower key ≠ Name.lower other) ∧
          perform .names container = (.ok (.list container.fields.keys), container) ∧
          ∀ entry ∈ container.fields.entries,
            perform (.presentFields entry.1) container = (.ok (.tuple entry.2), container)) := by
  refine ⟨fun start isHeaders => outcomes_eq_of_respelled respelled isHeaders, fun named => ?_⟩
  intro container
  have lower : ∀ key ∈ container.fields.keys, InLower key :=
    inLower_after named rfl fun key member => nomatch member
  obtain ⟨isHeaders, keyed⟩ := keyedAsHeaders_empty.moves rfl
    (moves_after operations (.new (.headers typeName attributes)))
  refine ⟨lower, keyed.distinct.imp_of_mem ?_, rfl, fun entry member =>
    perform_presentFields_of_inLower isHeaders keyed member (lower _ (List.mem_map_of_mem member))⟩
  intro key other member member' apart same
  rw [show Name.lower key = .ok key from lower key member,
    show Name.lower other = .ok other from lower other member', Except.ok.injEq] at same
  have isName : key.IsName := keyed.isName member
  rw [← same, isName.beq_self] at apart
  cases apart

theorem outcomes_of_respelled_age :
    let operations : List Operation := [.addField (.text "AGE") (.octets [49]),
      .merge (some (.plain (.list [.tuple [.text "Via", .null]]))) [], .lastField (.text "VIA")]
    let operations' : List Operation := [.addField (.codec .age) (.octets [49]),
      .merge (some (.plain (.list [.list [.text "VIA", .null]]))) [], .lastField (.text "via")]
    let container := after operations (.new .common)
    outcomes operations (.new .common) = outcomes operations' (.new .common) ∧
      perform (.presentFields (.text "age")) container =
        (.ok (.tuple [.octets [49]]), container) := by
  intro operations operations' container
  have age : Spells (.text "AGE") (.text "age") := .text "AGE"
  have belongs : Codec.age.header = some "age" := rfl
  have age' : Spells (.codec .age) (.text "age") := .identity belongs
  have via : Spells (.text "Via") (.text "via") := .text "Via"
  have via' : Spells (.text "VIA") (.text "via") := .text "VIA"
  have via'' : Spells (.text "via") (.text "via") := .text "via"
  have respelled : List.Forall₂ Operation.Respelled operations operations' :=
    .cons (.on (.addField _) age age' nofun)
      (.cons (.merge (.cons (.name rfl rfl via via') .nil) [])
        (.cons (.on .lastField via' via'' nofun) .nil))
  have named : ∀ operation ∈ operations, operation.NamedInAscii := by
    have ascii (name : String) (isAscii : Text.IsAscii name.toList) :
        IsAsciiName (.text name) := .text isAscii
    refine List.forall_mem_cons.mpr ⟨.on (ascii "AGE" (by decide)) (.addField _),
      List.forall_mem_cons.mpr ⟨.merge ?_,
        List.forall_mem_singleton.mpr (.on (ascii "VIA" (by decide)) .lastField)⟩⟩
    rintro pair member name field unpacks
    obtain rfl := List.mem_singleton.mp member
    cases unpacks
    exact ascii "Via" (by decide)
  obtain ⟨same, inAscii⟩ := outcomes_of_respelled "Headers" Profile.commonAttributes respelled
  exact ⟨same _ rfl, (inAscii named).2.2.2 (.text "age", [.octets [49]]) (List.mem_cons_self ..)⟩

end TypedHeaders.Container
