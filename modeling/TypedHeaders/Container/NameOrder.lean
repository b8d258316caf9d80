import TypedHeaders.Error
import TypedHeaders.Value.KeyOrder

/-! # The order of names

Two texts have an order and two strings of bytes have one, but a text and bytes have none. Where names
of both kinds are to be put in order, the first comparison between the two kinds fails. Which kind it
names first is a matter of how names are put in order: in runs that are in order as they stand, each
brought to a least length, where neighbouring runs are joined as soon as the place of their border
asks for it.
-/

namespace TypedHeaders.Container

/-- The order of names, by code points or bytes. -/
def nameLe (a b : Value) : Bool :=
  match a.units?, b.units? with
  | some (_, xs), some (_, ys) => lexicographic xs ys != .gt
  | _, _ => true

/-- The error for two names that have no order, of which the first is asked to be before the other. -/
def unordered (name other : Value) : Error :=
  .wrongType (.notOrdered Comparison.less.sign name.typeName other.typeName)

/-- Names that were put in order together, all of one kind: some name of theirs, how many names come
before them, how many they are, and the depth of the border to the run after them. -/
structure NameRun where
  name : Value
  start : Nat
  length : Nat
  depth : Nat

namespace NameRun

/-- One run out of two neighbours. The first name of the right one is put into the left one first. -/
def join (left right : NameRun) : Except Error NameRun :=
  if left.name.typeName = right.name.typeName then
    .ok { left with length := left.length + right.length }
  else .error (unordered right.name left.name)

/-- How often all `total` names have to be halved until the middle of a run and the middle of the
`length` names after it lie in different parts. -/
def borderDepth (total : Nat) (run : NameRun) (length : Nat) : Nat :=
  let middle := 2 * run.start + run.length
  let next := middle + run.length + length
  let part (twice halvings : Nat) := twice * Nat.pow 2 halvings / total
  ((List.range total).find? fun halvings => part middle halvings ≠ part next halvings).getD 0

/-- The last run and the runs before it, nearest first, once the depth of its border is known: it is
joined with those before it that have a deeper border. -/
def settle (depth : Nat) (last : NameRun) : List NameRun → Except Error (List NameRun)
  | [] => .ok [{ last with depth }]
  | before :: runs =>
    if depth < before.depth then do settle depth (← before.join last) runs
    else .ok ({ last with depth } :: before :: runs)

/-- The runs so far, nearest first, as they are when a run of `length` names is found after them. -/
def makeRoom (total length : Nat) : List NameRun → Except Error (List NameRun)
  | [] => .ok []
  | last :: runs => settle (last.borderDepth total length) last runs

/-- The last run joined with all runs before it, nearest first. Of three runs the middle one is joined
with the shorter one of the others. -/
def collapse (last : NameRun) : List NameRun → Except Error NameRun
  | [] => .ok last
  | [before] => before.join last
  | before :: first :: runs =>
    if first.length < last.length then do collapse last ((← first.join before) :: runs)
    else do collapse (← before.join last) (first :: runs)
termination_by runs => runs.length

/-- The least length of a run among so many names: all of them if they are fewer than 64, and otherwise
between 32 and 64 of them. -/
def leastLength (total : Nat) : Nat :=
  let unit := Nat.pow 2 (total.log2 - 5)
  (total + unit - 1) / unit

/-- How many names the run at the beginning has. The longest run that is there is looked for first,
and more names are put into it one by one if it is too short. -/
def lengthAt (least : Nat) (first : Value) (rest : List Value) : Except Error Nat :=
  let ofKind (name : Value) : Bool := name.typeName = first.typeName
  let alike := first :: rest.takeWhile ofKind
  let found := (Value.firstRun (fun a b => !nameLe b a) alike).1.length
  let length := max found (min least (rest.length + 1))
  match rest.dropWhile ofKind with
  | other :: _ =>
    -- The name after a run is compared with its last one, and each name put into it with some of it.
    if found = alike.length ∨ alike.length < length then .error (unordered other first)
    else .ok length
  | [] => .ok length

/-- Whether names have an order, by running through the comparisons. The runs so far, nearest first,
have the first `start` of all `total` names. -/
def compareAll (total start : Nat) (runs : List NameRun) : List Value → Except Error Unit
  | [] =>
    match runs with
    | [] => .ok ()
    | last :: before => do
      let _ ← collapse last before
  | first :: rest => do
    let length ← lengthAt (leastLength total) first rest
    let before ← makeRoom total length runs
    compareAll total (start + length) (⟨first, start, length, 0⟩ :: before)
      (rest.drop (length - 1))
termination_by names => names.length
decreasing_by
  rw [List.length_drop, List.length_cons]
  omega

end NameRun

/-- Names in order. Of names without an order the two that were compared are reported. -/
def sortNames (names : List Value) : Except Error (List Value) := do
  NameRun.compareAll names.length 0 [] names
  return names.mergeSort nameLe

end TypedHeaders.Container
