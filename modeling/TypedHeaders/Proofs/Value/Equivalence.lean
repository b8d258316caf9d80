import Mathlib.Data.List.Forall2
import TypedHeaders.Proofs.Time.Moment
import TypedHeaders.Proofs.Value.Equality

/-! # Equality of decoded values

On the values that codecs decode to, and on tuples and lists of them, equality is an equivalence. It goes
through two values side by side: equal ones have equal parts in the same places, and where one has a
tag, so has the other. Values that are equal have the same digest, or neither of them has one.
-/

namespace TypedHeaders

/-- Moments that name the same instant, both with a zone or both without one, have one digest. -/
theorem Digest.ofMoment_eq {first second : Moment}
    (zoned : first.offset?.isSome = second.offset?.isSome)
    (same : first.instant = second.instant) : ofMoment first = ofMoment second := by
  cases here : first.offset? with
  | none =>
    rw [here, Option.isSome_none, eq_comm, Option.isSome_eq_false_iff, Option.isNone_iff_eq_none]
      at zoned
    rw [Moment.eq_of_naive_of_instant here zoned same]
  | some offset =>
    rw [here, Option.isSome_some, eq_comm, Option.isSome_iff_exists] at zoned
    obtain ⟨offset', here'⟩ := zoned
    simp only [ofMoment, here, here', same]

namespace Value

/-- Values without parts that codecs take or give. -/
inductive IsSimple : Value → Prop
  | null : IsSimple .null
  | boolean (b : Bool) : IsSimple (.boolean b)
  | integer (n : Int) : IsSimple (.integer n)
  | text (s : String) : IsSimple (.text s)
  | octets (data : Octets) : IsSimple (.octets data)
  | moment (when : Moment) : IsSimple (.moment when)
  | past : IsSimple .past

/-- Values that are built from simple ones as lists, as tuples and with tags. -/
inductive IsDecoded : Value → Prop
  | simple {value : Value} (isSimple : value.IsSimple) : IsDecoded value
  | list {items : List Value} (each : ∀ item ∈ items, IsDecoded item) : IsDecoded (.list items)
  | tuple {items : List Value} (each : ∀ item ∈ items, IsDecoded item) : IsDecoded (.tuple items)
  | tagged (tag : Tag) {content : Value} (inner : IsDecoded content) :
      IsDecoded (.tagged tag content)

def parts : Value → List Value
  | .list items | .tuple items => items
  | .tagged _ content => [content]
  | _ => []

/-- What equality sees in a value apart from its parts. -/
inductive Frame where
  | simple (essence : Option Essence)
  | list
  | tuple
  | tagged (tag : Tag)

def frame : Value → Frame
  | .list _ => .list
  | .tuple _ => .tuple
  | .tagged tag _ => .tagged tag
  | value => .simple value.plainEssence?

/-- The value at the end of a path, each step of which is the place of a part. -/
def part? : List Nat → Value → Option Value
  | [], value => some value
  | place :: path, value => value.parts[place]?.bind (part? path)

variable {a b c : Value}

/-! ## One level -/

theorem equalItems_iff_forall₂ (xs ys : List Value) :
    equalItems xs ys = true ↔ List.Forall₂ (fun x y => equal x y = true) xs ys := by
  induction xs generalizing ys with
  | nil => cases ys <;> simp [equalItems]
  | cons x xs ih => cases ys <;> simp [equalItems, ih]

/-- A list equals the lists whose items equal its own, in order. -/
theorem list_equal_iff (xs : List Value) (b : Value) :
    equal (.list xs) b = true ↔
      ∃ ys, b = .list ys ∧ List.Forall₂ (fun x y => equal x y = true) xs ys := by
  cases b <;> simp [equal, equalPlain, equalNumbers, number?, equalItems_iff_forall₂]

/-- A tuple equals the tuples whose items equal its own, in order. -/
theorem tuple_equal_iff (xs : List Value) (b : Value) :
    equal (.tuple xs) b = true ↔
      ∃ ys, b = .tuple ys ∧ List.Forall₂ (fun x y => equal x y = true) xs ys := by
  cases b <;> simp [equal, equalPlain, equalNumbers, number?, equalItems_iff_forall₂]

/-- A tagged value equals only values with its tag and an equal content. -/
theorem tagged_equal_iff (tag : Tag) (x b : Value) :
    equal (.tagged tag x) b = true ↔ ∃ y, b = .tagged tag y ∧ equal x y = true := by
  cases b with
  | tagged tag' y =>
    rw [equal, Bool.and_eq_true, beq_iff_eq]
    constructor
    · rintro ⟨rfl, content⟩
      exact ⟨y, rfl, content⟩
    · rintro ⟨_, eq, content⟩
      cases eq
      exact ⟨rfl, content⟩
  | _ => simp [equal, equalPlain, equalNumbers, number?]

private theorem IsSimple.exists_essence (isSimple : a.IsSimple) :
    ∃ x, a.plainEssence? = some x := by
  cases isSimple <;> exact ⟨_, rfl⟩

/-- A simple value equals the simple ones in which equality sees the same. -/
theorem IsSimple.equal_iff (isSimple : a.IsSimple) (decoded : b.IsDecoded) :
    equal a b = true ↔ b.IsSimple ∧ b.plainEssence? = a.plainEssence? := by
  obtain ⟨x, seen⟩ := isSimple.exists_essence
  rw [equal_of_plain seen]
  cases decoded with
  | simple isSimple' =>
    obtain ⟨y, seen'⟩ := isSimple'.exists_essence
    rw [equalPlain_iff seen seen', seen, seen', Option.some.injEq, eq_comm]
    exact (and_iff_right isSimple').symm
  | _ =>
    rw [seen]
    refine iff_of_false ?_ fun same => by cases same.2
    cases isSimple <;> simp [equalPlain, equalNumbers, number?]

private theorem IsSimple.parts_eq (isSimple : a.IsSimple) :
    a.parts = [] := by cases isSimple <;> rfl

private theorem IsSimple.frame_eq (isSimple : a.IsSimple) : a.frame = .simple a.plainEssence? := by
  cases isSimple <;> rfl

namespace IsDecoded

/-- The parts of a decoded value are decoded values, which is what the inductions below go along. -/
theorem parts (decoded : a.IsDecoded) : ∀ part ∈ a.parts, part.IsDecoded := by
  cases decoded with
  | simple isSimple =>
    rw [isSimple.parts_eq]
    exact List.forall_mem_nil _
  | list each | tuple each => exact each
  | tagged _ inner => exact List.forall_mem_singleton.mpr inner

/-- What holds of a value if it holds of its parts holds of every decoded value. -/
theorem inductOnParts {motive : (value : Value) → value.IsDecoded → Prop}
    (step : ∀ value (decoded : value.IsDecoded),
      (∀ part (member : part ∈ value.parts), motive part (decoded.parts part member)) →
        motive value decoded)
    (decoded : a.IsDecoded) : motive a decoded := by
  induction decoded with
  | simple isSimple =>
    refine step _ _ fun part member => ?_
    rw [isSimple.parts_eq] at member
    cases member
  | list each ih | tuple each ih => exact step _ _ ih
  | tagged tag inner ih =>
    refine step _ _ fun part member => ?_
    cases List.mem_singleton.mp member
    exact ih

/-- Values are equal if their frames are the same and their parts are equal in order. -/
theorem equal_iff (decoded : a.IsDecoded) (decoded' : b.IsDecoded) :
    equal a b = true ↔
      a.frame = b.frame ∧ List.Forall₂ (fun x y => equal x y = true) a.parts b.parts := by
  cases decoded with
  | simple isSimple =>
    rw [isSimple.equal_iff decoded', isSimple.frame_eq, isSimple.parts_eq,
      List.forall₂_nil_left_iff]
    cases decoded' with
    | simple isSimple' => simp [isSimple', isSimple'.frame_eq, isSimple'.parts_eq, eq_comm]
    | _ => exact iff_of_false (fun same => by cases same.1) (fun same => by cases same.1)
  | list =>
    rw [list_equal_iff]
    cases b <;> simp [frame, Value.parts]
  | tuple =>
    rw [tuple_equal_iff]
    cases b <;> simp [frame, Value.parts]
  | tagged =>
    rw [tagged_equal_iff]
    cases b with
    | tagged tag' y => simp [frame, Value.parts, @eq_comm _ tag']
    | _ => simp [frame, Value.parts]

end IsDecoded

/-! ## An equivalence -/

private theorem forall₂_imp_of_mem {α β : Type} {related related' : α → β → Prop} {xs : List α}
    {ys : List β} (each : ∀ x ∈ xs, ∀ y ∈ ys, related x y → related' x y)
    (all : List.Forall₂ related xs ys) : List.Forall₂ related' xs ys := by
  refine List.forall₂_iff_zip.mpr ⟨all.length_eq, fun {x y} member => ?_⟩
  obtain ⟨left, right⟩ := List.of_mem_zip member
  exact each x left y right (List.forall₂_zip all member)

private theorem forall₂_trans_of_mem {α : Type} {related : α → α → Prop} {xs ys zs : List α}
    (each : ∀ x ∈ xs, ∀ y ∈ ys, ∀ z ∈ zs, related x y → related y z → related x z)
    (first : List.Forall₂ related xs ys) (second : List.Forall₂ related ys zs) :
    List.Forall₂ related xs zs := by
  refine List.forall₂_iff_get.mpr ⟨first.length_eq.trans second.length_eq, fun i here there => ?_⟩
  have between : i < ys.length := first.length_eq ▸ here
  exact each _ (List.get_mem ..) _ (List.get_mem ..) _ (List.get_mem ..)
    (first.get here between) (second.get between there)

namespace IsDecoded

theorem equal_refl (decoded : a.IsDecoded) : equal a a = true := by
  induction decoded using inductOnParts with
  | step value decoded ih => exact (decoded.equal_iff decoded).mpr ⟨rfl, List.forall₂_same.mpr ih⟩

/-- Equality of decoded values can be read in either direction. -/
theorem equal_symm (decoded : a.IsDecoded) (decoded' : b.IsDecoded) (same : equal a b = true) :
    equal b a = true := by
  induction decoded using inductOnParts generalizing b with
  | step value decoded ih =>
    obtain ⟨frame, parts⟩ := (decoded.equal_iff decoded').mp same
    have flipped := forall₂_imp_of_mem
      (fun x member y member' => ih x member (decoded'.parts y member')) parts
    exact (decoded'.equal_iff decoded).mpr ⟨frame.symm, flipped.flip⟩

theorem equal_comm (decoded : a.IsDecoded) (decoded' : b.IsDecoded) : equal a b = equal b a :=
  Bool.eq_iff_iff.mpr ⟨equal_symm decoded decoded', equal_symm decoded' decoded⟩

/-- Equality chains across three decoded values, by induction on the parts of the first. -/
theorem equal_trans (decoded : a.IsDecoded) (decoded' : b.IsDecoded) (decoded'' : c.IsDecoded)
    (first : equal a b = true) (second : equal b c = true) : equal a c = true := by
  induction decoded using inductOnParts generalizing b c with
  | step value decoded ih =>
    obtain ⟨frame, parts⟩ := (decoded.equal_iff decoded').mp first
    obtain ⟨frame', parts'⟩ := (decoded'.equal_iff decoded'').mp second
    refine (decoded.equal_iff decoded'').mpr
      ⟨frame.trans frame', forall₂_trans_of_mem ?_ parts parts'⟩
    exact fun x member y member' z member'' =>
      ih x member (decoded'.parts y member') (decoded''.parts z member'')

/-- Values that are equal have equal values at the end of each path. -/
theorem exists_equal_part (decoded : a.IsDecoded) (decoded' : b.IsDecoded)
    (same : equal a b = true) {path : List Nat} {x : Value} (here : a.part? path = some x) :
    ∃ y, b.part? path = some y ∧ equal x y = true := by
  induction path generalizing a b with
  | nil =>
    cases here
    exact ⟨b, rfl, same⟩
  | cons place path ih =>
    have parts := ((decoded.equal_iff decoded').mp same).2
    obtain ⟨x', at', rest⟩ := Option.bind_eq_some_iff.mp here
    obtain ⟨inside, rfl⟩ := List.getElem?_eq_some_iff.mp at'
    have inside' : place < b.parts.length := parts.length_eq ▸ inside
    obtain ⟨y, there, equal⟩ := ih (decoded.parts _ (List.getElem_mem inside))
      (decoded'.parts _ (List.getElem_mem inside')) (parts.get inside inside') rest
    refine ⟨y, ?_, equal⟩
    rw [part?, List.getElem?_eq_getElem inside']
    exact there

end IsDecoded

/-! ## Values that differ -/

private theorem differItems_eq (xs ys : List Value) : differItems xs ys = !equalItems xs ys := by
  induction xs generalizing ys with
  | nil => cases ys <;> simp [differItems, equalItems]
  | cons x xs ih => cases ys <;> simp [differItems, equalItems, ih]

/-- Values differ if they are not equal, whichever of them decides it. -/
theorem IsDecoded.differ_eq (decoded : a.IsDecoded) (decoded' : b.IsDecoded) :
    a.differ b = !equal a b := by
  unfold differ
  split
  · rw [differItems_eq, equal]
  · rw [differItems_eq, equal]
  · rfl
  · rw [decoded.equal_comm decoded']
  · rfl

/-! ## Digests -/

private theorem digestItems_eq {xs ys : List Value}
    (same : List.Forall₂ (fun x y => x.digest = y.digest) xs ys) :
    digestItems xs = digestItems ys := by
  induction same with
  | nil => rfl
  | cons here _ ih => rw [digestItems, digestItems, here, ih]

/-- Simple values in which equality sees the same have one digest. -/
theorem IsSimple.digest_eq (isSimple : a.IsSimple) (isSimple' : b.IsSimple)
    (same : a.plainEssence? = b.plainEssence?) : a.digest = b.digest := by
  cases isSimple with
  | moment when =>
    cases isSimple' with
    | moment when' =>
      obtain ⟨zoned, instant⟩ := Essence.moment.inj (Option.some.inj same)
      exact congrArg Except.ok (Digest.ofMoment_eq zoned instant)
    | _ => cases same
  | _ =>
    cases isSimple' <;>
      simp only [plainEssence?, Option.some.injEq, reduceCtorEq, Essence.number.injEq,
        Essence.text.injEq, Essence.octets.injEq, Extended.quantity_ofInt_inj] at same <;>
      simp [digest, plainDigest, number?, same]

/-- Equal decoded values have one digest, so either finds what was stored under the other. -/
theorem IsDecoded.digest_eq (decoded : a.IsDecoded) (decoded' : b.IsDecoded)
    (same : equal a b = true) : a.digest = b.digest := by
  induction decoded generalizing b with
  | simple isSimple =>
    obtain ⟨isSimple', seen⟩ := (isSimple.equal_iff decoded').mp same
    exact isSimple.digest_eq isSimple' seen.symm
  | list =>
    obtain ⟨ys, rfl, -⟩ := (list_equal_iff ..).mp same
    rfl
  | tuple _ ih =>
    obtain ⟨ys, rfl, items⟩ := (tuple_equal_iff ..).mp same
    have digests : List.Forall₂ (fun x y => digest x = digest y) _ ys := forall₂_imp_of_mem
      (fun x member y member' => ih x member (decoded'.parts y member')) items
    rw [digest, digest, digestItems_eq digests]
  | tagged _ _ ih =>
    obtain ⟨y, rfl, content⟩ := (tagged_equal_iff ..).mp same
    rw [digest, digest, ih (decoded'.parts y (List.mem_singleton_self y)) content]

/-- On decoded values equality is an equivalence, and to differ is not to be equal. Equal values have
equal digests, and if one of them has a tagged value somewhere, then the other has one in the same place,
with the same tag and an equal content. -/
theorem equality_of_decoded (decoded : a.IsDecoded) (decoded' : b.IsDecoded)
    (decoded'' : c.IsDecoded) :
    (a == a) = true ∧ (a == b) = (b == a) ∧
      ((a == b) = true → (b == c) = true → (a == c) = true) ∧
      a.differ b = (!a == b) ∧
      (∀ tag, (Value.tagged tag a == b) = true ↔
        ∃ content, b = .tagged tag content ∧ (a == content) = true) ∧
      ((a == b) = true →
        (∀ path tag content, a.part? path = some (.tagged tag content) →
          ∃ content', b.part? path = some (.tagged tag content') ∧ (content == content') = true) ∧
        a.hashed = b.hashed) := by
  refine ⟨decoded.equal_refl, decoded.equal_comm decoded',
    decoded.equal_trans decoded' decoded'', decoded.differ_eq decoded',
    fun tag => tagged_equal_iff tag a b, fun same => ⟨fun path tag content here => ?_, ?_⟩⟩
  · obtain ⟨part, there, equal⟩ := decoded.exists_equal_part decoded' same here
    obtain ⟨content', rfl, inner⟩ := (tagged_equal_iff ..).mp equal
    exact ⟨content', there, inner⟩
  · rw [hashed, hashed, decoded.digest_eq decoded' same]

theorem equality_of_decoded_zones :
    let inUtc : Moment := ⟨⟨2020, 1, 1, by decide⟩, ⟨0, 0, 0, 0, by decide⟩, some .utc⟩
    let east : Moment :=
      ⟨⟨2020, 1, 1, by decide⟩, ⟨1, 0, 0, 0, by decide⟩, some ⟨3600000000, by decide⟩⟩
    let a := Value.tuple [.boolean true, .tagged .retryDate (.moment inUtc)]
    let b := Value.tuple [.integer 1, .tagged .retryDate (.moment east)]
    let c := Value.tuple [.integer 1, .tuple [.moment east]]
    a.IsDecoded ∧ b.IsDecoded ∧ c.IsDecoded ∧ (a == b) = true ∧ (b == a) = true ∧
      a.differ b = false ∧ a.hashed = b.hashed ∧ (a == c) = false := by
  intro inUtc east a b c
  have pair {x y : Value} (first : x.IsDecoded) (second : y.IsDecoded) :
      IsDecoded (.tuple [x, y]) :=
    .tuple (List.forall_mem_cons.mpr ⟨first, List.forall_mem_singleton.mpr second⟩)
  have decoded : a.IsDecoded := pair (.simple (.boolean _)) (.tagged _ (.simple (.moment _)))
  have decoded' : b.IsDecoded := pair (.simple (.integer _)) (.tagged _ (.simple (.moment _)))
  have decoded'' : c.IsDecoded := pair (.simple (.integer _))
    (.tuple (List.forall_mem_singleton.mpr (.simple (.moment _))))
  have same : (a == b) = true := by decide +kernel
  obtain ⟨-, symm, -, differ, -, alike⟩ := equality_of_decoded decoded decoded' decoded''
  obtain ⟨-, -, -, -, -, apart⟩ := equality_of_decoded decoded decoded'' decoded
  refine ⟨decoded, decoded', decoded'', same, symm ▸ same, by rw [differ, same]; rfl,
    (alike same).2, ?_⟩
  rw [← Bool.not_eq_true]
  intro same'
  obtain ⟨content, there, -⟩ := (apart same').1 [1] .retryDate _ rfl
  cases there

end Value

end TypedHeaders
