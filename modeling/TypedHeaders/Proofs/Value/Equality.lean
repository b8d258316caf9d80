import Mathlib.Data.Rat.Defs
import TypedHeaders.Value.Digest

/-! # What equality looks at

Two values that can be looked up are equal exactly if equality sees the same in them: of a number its
value, of a moment its instant, of a tuple what it sees in the items. So on such values equality is an
equivalence, and a key takes the place of every key that it equals.
-/

namespace TypedHeaders

/-- What equality sees in a number. The undefined one is seen by its identity. -/
inductive Quantity where
  | fraction (value : Rat)
  | infinite (negative : Bool)
  | undefined (identity : Identity)

/-- What equality sees in a value. -/
inductive Essence where
  | null
  | past
  | number (quantity : Quantity)
  | text (s : String)
  | octets (data : Octets)
  | date (day : CivilDate)
  | moment (zoned : Bool) (instant : Int)
  | marker (identity : Identity)
  | codec (codec : Codec)
  | stream (identity : Identity)
  | tuple (items : List Essence)
  | tagged (tag : Tag) (content : Essence)

/-! ## Numbers -/

namespace Extended

def IsProper : Extended → Prop
  | .fraction _ denominator => denominator ≠ 0
  | _ => True

/-- What equality sees in a number on the line, where an identity stands for the undefined one. -/
def quantity (identity : Identity) : Extended → Quantity
  | .undefined => .undefined identity
  | .infinite negative => .infinite negative
  | .fraction numerator denominator => .fraction (mkRat numerator denominator)

private theorem isProper_ofInt (n : Int) : (ofInt n).IsProper := Nat.one_ne_zero

private theorem ofInt_ne_undefined (n : Int) : ofInt n ≠ .undefined := nofun

/-- Two numbers have one quantity when they are equal, or are one and the same undefined number. -/
theorem quantity_eq_iff {x y : Extended} (proper : x.IsProper) (proper' : y.IsProper)
    (i j : Identity) :
    x.quantity i = y.quantity j ↔ x.equal y = true ∨ x = .undefined ∧ y = .undefined ∧ i = j := by
  cases x <;> cases y <;> simp [quantity, equal]
  exact Rat.mkRat_eq_iff proper proper'

theorem quantity_ofInt_inj {n m : Int} {i j : Identity} :
    (ofInt n).quantity i = (ofInt m).quantity j ↔ n = m := by
  simp [ofInt, quantity, Rat.mkRat_one]

end Extended

namespace Floating

private theorem nearest_ne_zero (numerator denominator : Nat) :
    (nearest numerator denominator).2 ≠ 0 := by
  have either {p : Prop} {decidable : Decidable p} (n m k : Nat) :
      (if p then (n, Nat.pow 2 k) else (m, 1)).2 ≠ 0 := by
    split
    · exact (Nat.two_pow_pos k).ne'
    · exact Nat.one_ne_zero
  exact either _ _ _

private theorem isProper_magnitude (text : List Char) : (magnitude text).IsProper := by
  simp only [magnitude]
  split
  · trivial
  · split
    · trivial
    · split
      · exact Nat.one_ne_zero
      · split <;> exact nearest_ne_zero _ _

private theorem isProper_value (x : Floating) : x.value.IsProper := by
  unfold value
  split
  · rename_i text _
    have proper := isProper_magnitude text
    cases size : magnitude text with
    | undefined => trivial
    | infinite => trivial
    | fraction numerator denominator =>
      rw [size] at proper
      exact proper
  · exact isProper_magnitude _

end Floating

namespace Value

/-! ## Values -/

/-- What equality sees in a value that contains no others. -/
def plainEssence? : Value → Option Essence
  | .null => some .null
  | .past => some .past
  | .boolean b => some (.number ((Extended.ofInt b.toNat).quantity .shared))
  | .integer n => some (.number ((Extended.ofInt n).quantity .shared))
  | .floating x => some (.number (x.value.quantity x.identity))
  | .text s => some (.text s)
  | .octets data => some (.octets data)
  | .date day => some (.date day)
  | .moment when => some (.moment when.offset?.isSome when.instant)
  | .marker identity _ => some (.marker identity)
  | .codec c => some (.codec c)
  | .stream identity _ => some (.stream identity)
  | _ => none

mutual

/-- What equality sees in a value that can be looked up. -/
def essence? : Value → Option Essence
  | .tuple items => (essences? items).map .tuple
  | .tagged tag content => (essence? content).map (.tagged tag)
  | value => plainEssence? value

def essences? : List Value → Option (List Essence)
  | [] => some []
  | item :: rest => (essence? item).bind fun x => (essences? rest).map (x :: ·)

end

/-- Plain values are equal exactly when their essences are. -/
theorem equalPlain_iff {a b : Value} {x y : Essence} (seen : a.plainEssence? = some x)
    (seen' : b.plainEssence? = some y) : equalPlain a b = true ↔ x = y := by
  cases a <;> cases b <;>
    simp only [plainEssence?, Option.some.injEq, reduceCtorEq] at seen seen' <;>
    subst seen seen' <;>
    simp [equalPlain, equalNumbers, number?, Moment.sameTime, Floating.sameUndefined,
      Floating.isUndefined, Floating.isProper_value, Extended.quantity_eq_iff,
      Extended.isProper_ofInt, Extended.ofInt_ne_undefined, and_assoc]

/-- What can be looked up is a tuple, a tagged value, or a value without others in it. -/
private theorem essence?_cases {a : Value} {x : Essence} (seen : a.essence? = some x) :
    (∃ items xs, a = .tuple items ∧ x = .tuple xs ∧ essences? items = some xs) ∨
      (∃ tag content y, a = .tagged tag content ∧ x = .tagged tag y ∧ content.essence? = some y) ∨
      a.plainEssence? = some x := by
  cases a with
  | tuple items =>
    obtain ⟨xs, inner, rfl⟩ := Option.map_eq_some_iff.mp (essence?.eq_1 items ▸ seen)
    exact .inl ⟨items, xs, rfl, rfl, inner⟩
  | tagged tag content =>
    obtain ⟨y, inner, rfl⟩ := Option.map_eq_some_iff.mp (essence?.eq_2 tag content ▸ seen)
    exact .inr (.inl ⟨tag, content, y, rfl, rfl, inner⟩)
  | _ => exact .inr (.inr seen)

/-- Against a plain value only the plain comparison counts. -/
theorem equal_of_plain {a : Value} {x : Essence} (plain : a.plainEssence? = some x)
    (b : Value) : equal a b = equalPlain a b := by
  cases a <;> cases plain <;> simp only [equal]

private theorem essences?_cons_eq_some_iff {a : Value} {as : List Value} {zs : List Essence} :
    essences? (a :: as) = some zs ↔
      ∃ x, a.essence? = some x ∧ ∃ xs, essences? as = some xs ∧ x :: xs = zs := by
  simp only [essences?, Option.bind_eq_some_iff, Option.map_eq_some_iff]

private theorem plain_apart_tuple {a : Value} {x : Essence} (plain : a.plainEssence? = some x)
    (items : List Value) (xs : List Essence) :
    equalPlain a (.tuple items) = false ∧ equal (.tuple items) a = false ∧ x ≠ .tuple xs := by
  cases a <;> cases plain <;> simp [equal, equalPlain, equalNumbers, number?]

private theorem plain_apart_tagged {a : Value} {x : Essence} (plain : a.plainEssence? = some x)
    (tag : Tag) (content : Value) (y : Essence) :
    equalPlain a (.tagged tag content) = false ∧ equal (.tagged tag content) a = false ∧
      x ≠ .tagged tag y := by
  cases a <;> cases plain <;> simp [equal, equalPlain, equalNumbers, number?]

private theorem tuple_apart_tagged (items : List Value) (tag : Tag) (content : Value) :
    equal (.tuple items) (.tagged tag content) = false ∧
      equal (.tagged tag content) (.tuple items) = false := by
  simp [equal, equalPlain, equalNumbers, number?]

mutual

/-- Values that can be looked up are equal if equality sees the same in them. -/
theorem equal_iff {a b : Value} {x y : Essence} (seen : a.essence? = some x)
    (seen' : b.essence? = some y) : equal a b = true ↔ x = y := by
  rcases essence?_cases seen with
      ⟨items, xs, rfl, rfl, inner⟩ | ⟨tag, content, z, rfl, rfl, inner⟩ | plain <;>
    rcases essence?_cases seen' with
      ⟨items', xs', rfl, rfl, inner'⟩ | ⟨tag', content', z', rfl, rfl, inner'⟩ | plain'
  · rw [equal, equalItems_iff inner inner', Essence.tuple.injEq]
  · simp [tuple_apart_tagged]
  · simp [plain_apart_tuple plain' items xs, (plain_apart_tuple plain' items xs).2.2.symm]
  · simp [tuple_apart_tagged]
  · rw [equal, Bool.and_eq_true, beq_iff_eq, equal_iff inner inner', Essence.tagged.injEq]
  · simp [plain_apart_tagged plain' tag content z, (plain_apart_tagged plain' tag content z).2.2.symm]
  · simp [equal_of_plain plain, plain_apart_tuple plain items' xs']
  · simp [equal_of_plain plain, plain_apart_tagged plain tag' content' z']
  · rw [equal_of_plain plain, equalPlain_iff plain plain']
termination_by sizeOf a

/-- Sequences of values with essences are equal when the essences are. -/
theorem equalItems_iff {as bs : List Value} {xs ys : List Essence} (seen : essences? as = some xs)
    (seen' : essences? bs = some ys) : equalItems as bs = true ↔ xs = ys := by
  match as, bs with
  | [], [] =>
    cases seen
    cases seen'
    simp [equalItems]
  | [], b :: bs =>
    cases seen
    obtain ⟨y, -, ys, -, rfl⟩ := essences?_cons_eq_some_iff.mp seen'
    simp [equalItems]
  | a :: as, [] =>
    cases seen'
    obtain ⟨x, -, xs, -, rfl⟩ := essences?_cons_eq_some_iff.mp seen
    simp [equalItems]
  | a :: as, b :: bs =>
    obtain ⟨x, first, xs, rest, rfl⟩ := essences?_cons_eq_some_iff.mp seen
    obtain ⟨y, first', ys, rest', rfl⟩ := essences?_cons_eq_some_iff.mp seen'
    rw [equalItems, Bool.and_eq_true, equal_iff first first', equalItems_iff rest rest',
      List.cons.injEq]
termination_by sizeOf as

end

private theorem except_bind_eq_ok {α β : Type} {first : Except String α}
    {next : α → Except String β} {result : β} (ok : (first >>= next) = .ok result) :
    ∃ middle, first = .ok middle ∧ next middle = .ok result := by
  cases first with
  | error type => cases ok
  | ok middle => exact ⟨middle, rfl, ok⟩

mutual

/-- Equality sees something in every value that has a digest. -/
theorem exists_essence? {a : Value} {parts : List DigestPart} (digest : a.digest = .ok parts) :
    ∃ x, a.essence? = some x := by
  match a with
  | .tuple items =>
    obtain ⟨inner, ofItems, -⟩ := except_bind_eq_ok (Value.digest.eq_1 items ▸ digest)
    obtain ⟨xs, seen⟩ := exists_essences? ofItems
    exact ⟨.tuple xs, by rw [essence?, seen]; rfl⟩
  | .tagged tag content =>
    obtain ⟨inner, ofContent, -⟩ := except_bind_eq_ok (Value.digest.eq_2 tag content ▸ digest)
    obtain ⟨x, seen⟩ := exists_essence? ofContent
    exact ⟨.tagged tag x, by rw [essence?, seen]; rfl⟩
  | .list _ | .buffer _ | .mapping _ | .slice .. => cases digest
  | .null | .boolean _ | .integer _ | .floating _ | .text _ | .octets _ | .date _ | .moment _
  | .past | .marker .. | .codec _ | .stream .. => exact ⟨_, rfl⟩
termination_by sizeOf a

private theorem exists_essences? {as : List Value} {parts : List DigestPart}
    (digest : digestItems as = .ok parts) : ∃ xs, essences? as = some xs := by
  match as with
  | [] => exact ⟨[], rfl⟩
  | a :: as =>
    obtain ⟨inner, ofItem, rest⟩ := except_bind_eq_ok (digestItems.eq_2 a as ▸ digest)
    obtain ⟨others, ofRest, -⟩ := except_bind_eq_ok rest
    obtain ⟨x, first⟩ := exists_essence? ofItem
    obtain ⟨xs, rest⟩ := exists_essences? ofRest
    exact ⟨x :: xs, essences?_cons_eq_some_iff.mpr ⟨x, first, xs, rest, rfl⟩⟩
termination_by sizeOf as

end

/-! ## Keys -/

/-- Values that can be looked up equal each other if a third one equals both. -/
theorem equal_of_equal_left {a b c : Value} {x y z : Essence} (seen : a.essence? = some x)
    (seen' : b.essence? = some y) (seen'' : c.essence? = some z) (same : equal c a = true)
    (same' : equal c b = true) : equal a b = true :=
  (equal_iff seen seen').mpr
    (((equal_iff seen'' seen).mp same).symm.trans ((equal_iff seen'' seen').mp same'))

/-! ## Values that equal themselves -/

mutual

/-- A value in which each dictionary has no key twice. -/
def IsSound : Value → Prop
  | .list items | .tuple items | .stream _ items => AreSound items
  | .mapping entries =>
    entries.Pairwise (fun first later => equal later.1 first.1 = false) ∧ AreSoundEntries entries
  | .tagged _ content => IsSound content
  | .slice start stop step => IsSound start ∧ IsSound stop ∧ IsSound step
  | _ => True

def AreSound : List Value → Prop
  | [] => True
  | item :: rest => IsSound item ∧ AreSound rest

def AreSoundEntries : List (Value × Value) → Prop
  | [] => True
  | (key, value) :: rest => IsSound key ∧ IsSound value ∧ AreSoundEntries rest

end

private theorem equalPlain_self (a : Value) (plain : a.plainEssence?.isSome) :
    equalPlain a a = true := by
  obtain ⟨x, seen⟩ := Option.isSome_iff_exists.mp plain
  exact (equalPlain_iff seen seen).mpr rfl

mutual

/-- A sound value equals itself, by induction on its parts. -/
theorem equal_self : ∀ {a : Value}, a.IsSound → equal a a = true
  | .list items, sound | .tuple items, sound => by
    rw [equal]
    exact equalItems_self sound
  | .mapping entries, sound => by
    rw [equal, beq_self_eq_true, Bool.true_and]
    exact equalEntries_self [] sound.1 sound.2
  | .tagged tag content, sound => by
    rw [equal, beq_self_eq_true, Bool.true_and]
    exact equal_self sound
  | .slice start stop step, sound => by
    rw [equal, equal_self sound.1, equal_self sound.2.1, equal_self sound.2.2]
    rfl
  | .buffer data, _ => by simp [equal, equalPlain]
  | .null, _ | .boolean _, _ | .integer _, _ | .floating _, _ | .text _, _ | .octets _, _
  | .date _, _ | .moment _, _ | .past, _ | .marker .., _ | .codec _, _ | .stream .., _ => by
    rw [equal_of_plain rfl]
    exact equalPlain_self _ rfl

theorem equalItems_self : ∀ {items : List Value}, AreSound items → equalItems items items = true
  | [], _ => by rw [equalItems]
  | item :: rest, sound => by
    rw [equalItems, equal_self sound.1, equalItems_self sound.2]
    rfl

/-- Each entry is the first one with its key. -/
theorem equalEntries_self : ∀ {entries : List (Value × Value)} (before : List (Value × Value)),
    (before ++ entries).Pairwise (fun first later => equal later.1 first.1 = false) →
      AreSoundEntries entries → equalEntries entries (before ++ entries) = true
  | [], before, _, _ => by rw [equalEntries]
  | (key, value) :: rest, before, apart, sound => by
    have first : (before ++ (key, value) :: rest).find? (fun other => equal key other.1) =
        some (key, value) := by
      rw [List.find?_append, List.find?_eq_none.mpr]
      · simp [equal_self sound.1]
      · intro entry member
        simp [(List.pairwise_append.mp apart).2.2 entry member _ (List.mem_cons_self ..)]
    have others := equalEntries_self (before ++ [(key, value)])
      (by rwa [List.append_assoc]) sound.2.2
    rw [List.append_assoc] at others
    simp only [equalEntries, first, equal_self sound.2.1, Bool.true_and]
    exact others

end

theorem areSound_iff (items : List Value) : AreSound items ↔ ∀ item ∈ items, IsSound item := by
  induction items with
  | nil => simp [AreSound]
  | cons item rest ih => simp [AreSound, ih]

private theorem AreSoundEntries.keys {entries : List (Value × Value)}
    (sound : AreSoundEntries entries) : ∀ key ∈ entries.map Prod.fst, IsSound key := by
  induction entries with
  | nil => exact List.forall_mem_nil _
  | cons entry rest ih => exact List.forall_mem_cons.mpr ⟨sound.1, ih sound.2.2⟩

/-- What a sound value yields when it is gone through is sound. -/
theorem IsSound.items {value : Value} (sound : value.IsSound) {items : List Value}
    (yields : value.items? = some items) : ∀ item ∈ items, IsSound item := by
  cases value with
  | text s =>
    cases yields
    exact List.forall_mem_map.mpr fun _ _ => trivial
  | octets data | buffer data =>
    cases yields
    exact List.forall_mem_map.mpr fun _ _ => trivial
  | list items | tuple items | stream _ items =>
    cases yields
    exact (areSound_iff items).mp sound
  | mapping entries =>
    cases yields
    exact sound.2.keys
  | tagged tag content =>
    cases yields
    exact List.forall_mem_singleton.mpr sound
  | _ => cases yields

end Value

end TypedHeaders
