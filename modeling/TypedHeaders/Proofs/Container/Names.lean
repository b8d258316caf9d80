import TypedHeaders.Proofs.Container.Effect
import TypedHeaders.Proofs.Name

/-! # Names and the keys they stand for

A plain container keeps text as it is, and headers keep ASCII text in lower case, so asking for a
name or for its key is the same. On keys that are text or bytes equality is sharp, and the laws of
multi-maps hold without conditions.
-/

namespace TypedHeaders

namespace Value

/-- Texts and immutable bytes, which are all the keys that headers can have. -/
def IsName (value : Value) : Prop := (∃ s, value = .text s) ∨ ∃ data, value = .octets data

theorem isName_text (s : String) : (Value.text s).IsName := .inl ⟨s, rfl⟩

@[simp]
theorem text_beq (s t : String) : (Value.text s == Value.text t) = (s == t) := by
  change equal (.text s) (.text t) = _
  simp only [equal, equalPlain]

@[simp]
theorem octets_beq (x y : Octets) : (Value.octets x == Value.octets y) = (x == y) := by
  change equal (.octets x) (.octets y) = _
  simp only [equal, equalPlain]

/-- A text name is never the same as a name in bytes. -/
@[simp]
theorem text_beq_octets (s : String) (x : Octets) : (Value.text s == Value.octets x) = false := by
  change equal (.text s) (.octets x) = _
  simp only [equal, equalPlain, equalNumbers, number?]

@[simp]
theorem octets_beq_text (x : Octets) (s : String) : (Value.octets x == Value.text s) = false := by
  change equal (.octets x) (.text s) = _
  simp only [equal, equalPlain, equalNumbers, number?]

/-- Names are the same exactly when they are the same values. -/
theorem beq_iff_of_isName {a b : Value} (named : a.IsName) (named' : b.IsName) :
    (a == b) = true ↔ a = b := by
  rcases named with ⟨s, rfl⟩ | ⟨x, rfl⟩ <;> rcases named' with ⟨t, rfl⟩ | ⟨y, rfl⟩ <;> simp

theorem IsName.beq_self {a : Value} (named : a.IsName) : (a == a) = true :=
  (beq_iff_of_isName named named).mpr rfl

theorem beq_eq_false_iff_of_isName {a b : Value} (named : a.IsName) (named' : b.IsName) :
    (a == b) = false ↔ a ≠ b := by
  rw [← Bool.not_eq_true, beq_iff_of_isName named named']

/-- Where equality is sharp on the items, it is sharp on lists of them. -/
theorem beq_iff_of_forall {p : Value → Prop} (sharp : ∀ a b, p a → p b → ((a == b) = true ↔ a = b))
    {items others : List Value} (each : ∀ item ∈ items, p item) (each' : ∀ item ∈ others, p item) :
    (items == others) = true ↔ items = others := by
  induction items generalizing others with
  | nil => cases others <;> simp
  | cons item items ih =>
    cases others with
    | nil => simp
    | cons other others =>
      obtain ⟨here, rest⟩ := List.forall_mem_cons.mp each
      obtain ⟨here', rest'⟩ := List.forall_mem_cons.mp each'
      rw [List.cons_beq_cons, Bool.and_eq_true, sharp item other here here', ih rest rest',
        List.cons.injEq]

private theorem equalItems_eq_beq (items others : List Value) :
    equalItems items others = (items == others) := by
  induction items generalizing others with
  | nil => cases others <;> simp [equalItems]
  | cons item items ih =>
    cases others with
    | nil => simp [equalItems]
    | cons other others =>
      rw [equalItems, ih, List.cons_beq_cons]
      rfl

theorem list_beq (items others : List Value) :
    (Value.list items == Value.list others) = (items == others) := by
  rw [← equalItems_eq_beq]
  change equal (.list items) (.list others) = _
  rw [equal]

theorem tuple_beq (items others : List Value) :
    (Value.tuple items == Value.tuple others) = (items == others) := by
  rw [← equalItems_eq_beq]
  change equal (.tuple items) (.tuple others) = _
  rw [equal]

end Value

/-- Items that all come of others come of a list of these. -/
theorem exists_map_eq_of_forall_mem {α β : Type} {onItem : α → β} {p : α → Prop} {items : List β}
    (each : ∀ item ∈ items, ∃ source, item = onItem source ∧ p source) :
    ∃ sources : List α, items = sources.map onItem ∧ ∀ source ∈ sources, p source := by
  induction items with
  | nil => exact ⟨[], rfl, List.forall_mem_nil p⟩
  | cons item items ih =>
    obtain ⟨⟨source, rfl, here⟩, rest⟩ := List.forall_mem_cons.mp each
    obtain ⟨sources, rfl, others⟩ := ih rest
    exact ⟨source :: sources, rfl, List.forall_mem_cons.mpr ⟨here, others⟩⟩

namespace Container

private theorem requireDigest_text (s : String) : requireDigest (.text s) = .ok () := rfl

/-- What is assigned under a name is found there. -/
theorem find?_assign_self {key : Value} (isName : key.IsName) (values : Option (List Value))
    (fields : Fields) : (fields.assign key values).find? key = values :=
  MultiMap.find?_assign_self isName.beq_self values fields

/-- Among keys that are names an assignment shows under its own key only. -/
theorem find?_assign_of_ne {fields : Fields} (named : ∀ key ∈ fields.keys, key.IsName)
    {key other : Value} (isName : key.IsName) (isName' : other.IsName) (ne : other ≠ key)
    (values : Option (List Value)) :
    (fields.assign key values).find? other = fields.find? other := by
  have apart : (key == other) = false :=
    (Value.beq_eq_false_iff_of_isName isName isName').mpr (Ne.symm ne)
  apply MultiMap.find?_assign_of_apart apart
  intro a member same
  rwa [(Value.beq_iff_of_isName (named a member) isName).mp same]

/-- Names are distinct if they are distinct as keys. -/
theorem nodup_of_keys {fields : Fields} (distinct : fields.Distinct) {names : List String}
    (keys : fields.keys = names.map .text) : names.Nodup := by
  rw [MultiMap.Distinct, keys, List.pairwise_map] at distinct
  apply distinct.imp
  intro _ _ apart same
  simp [same] at apart

end Container

namespace Profile

/-- The names that containers are asked for, each with the text that it is kept under. A plain
container takes any text, and headers take ASCII text and the identity of a header that is named in
ASCII. -/
inductive Names : Profile → Value → String → Prop
  | plain (name : String) : Names .plain (.text name) name
  | header {typeName : String} {attributes : List (String × Option Codec)} {name : String}
      (ascii : Text.IsAscii name.toList) :
      Names (.headers typeName attributes) (.text name) (Name.lowerAscii name)
  | identity {typeName : String} {attributes : List (String × Option Codec)} {codec : Codec}
      {name : String} (belongs : codec.header = some name) (ascii : Text.IsAscii name.toList) :
      Names (.headers typeName attributes) (.codec codec) (Name.lowerAscii name)

theorem Names.slot {profile : Profile} {name : Value} {key : String}
    (names : profile.Names name key) : profile.slot name = .ok (.text key) := by
  rw [Container.slot_eq_ok_iff]
  refine ⟨?_, Container.requireDigest_text key⟩
  cases names with
  | plain => rfl
  | header ascii => exact Name.lower_text_of_isAscii ascii
  | identity belongs ascii =>
    simp only [Profile.key, belongs]
    exact Name.lower_text_of_isAscii ascii

private theorem names_lowerAscii {typeName : String} {attributes : List (String × Option Codec)}
    {name : String} (ascii : Text.IsAscii name.toList) :
    Names (.headers typeName attributes) (.text (Name.lowerAscii name)) (Name.lowerAscii name) := by
  have names : Names (.headers typeName attributes) (.text (Name.lowerAscii name))
      (Name.lowerAscii (Name.lowerAscii name)) := .header (Name.isAscii_lowerAscii ascii)
  rwa [Name.lowerAscii_lowerAscii ascii] at names

/-- ASCII text without capital letters is kept under itself. -/
theorem Names.of_hasNoCapital {typeName : String} {attributes : List (String × Option Codec)}
    {name : String} (ascii : Text.IsAscii name.toList) (small : Text.HasNoCapital name.toList) :
    Names (.headers typeName attributes) (.text name) name := by
  have names : Names (.headers typeName attributes) (.text name) (Name.lowerAscii name) :=
    .header ascii
  rwa [Name.lowerAscii_of_hasNoCapital small] at names

/-- The key of a name stands for itself. -/
theorem Names.key {profile : Profile} {name : Value} {key : String}
    (names : profile.Names name key) : profile.Names (.text key) key := by
  cases names with
  | plain => exact .plain key
  | header ascii => exact names_lowerAscii ascii
  | identity _ ascii => exact names_lowerAscii ascii

end Profile

end TypedHeaders
