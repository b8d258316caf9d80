import TypedHeaders.Value.Bytes

/-! # Selecting from a sequence

A selector names one position of a sequence or a regular series of positions. Negative numbers count
from the end. A single position has to exist; the bounds of a series are brought into the sequence.
-/

namespace TypedHeaders

/-- One position, or every `step`-th position from `start` up to `stop`. -/
inductive Selector where
  | index (i : Int)
  | series (start stop : Option Int) (step : Int)
deriving DecidableEq, Repr

namespace Selector

/-- A bound of a series, where nothing means no bound. -/
def bound (value : Value) : Except Error (Option Int) :=
  match value with
  | .null => .ok none
  | value =>
    match value.whole? with
    | some n => .ok (some n)
    | none => .error (.wrongType .badSliceBound)

/-- The selector that a value stands for where it selects from a kind of sequence. -/
def ofValue (kind : Sequence) (value : Value) : Except Error Selector :=
  match value with
  | .slice start stop step => do
    let step := (← bound step).getD 1
    if step = 0 then throw (.badValue .zeroStep)
    let start ← bound start
    let stop ← bound stop
    pure (.series start stop step)
  | value =>
    match value.whole? with
    | some n =>
      if n < -countLimit ∨ countLimit ≤ n then .error (.outOfBounds .tooLarge)
      else .ok (.index n)
    | none => .error (.wrongType (.badIndex kind value.typeName))

/-- The position that a number names in a sequence of some length, if there is one. -/
def position? (length : Nat) (i : Int) : Option Nat :=
  let i := if i < 0 then i + length else i
  if 0 ≤ i ∧ i < length then some i.toNat else none

/-- A bound brought into a sequence of some length. Backwards the positions lie one lower. -/
def clamp (length : Nat) (backwards : Bool) (i : Int) : Int :=
  let lower : Int := if backwards then -1 else 0
  let upper : Int := if backwards then length - 1 else length
  let i := if i < 0 then i + length else i
  max lower (min upper i)

/-- The first position of a series, and the one at which it ends. -/
def bounds (length : Nat) (start stop : Option Int) (step : Int) : Int × Int :=
  let backwards : Bool := step < 0
  let first : Int := if backwards then length - 1 else 0
  let last : Int := if backwards then -1 else length
  (start.elim first (clamp length backwards), stop.elim last (clamp length backwards))

def count (first last step : Int) : Nat :=
  if step < 0 then ((first - last - 1) / -step + 1).toNat
  else ((last - first - 1) / step + 1).toNat

/-- The positions of a series in a sequence of some length, in the order of the series. -/
def positions (length : Nat) (start stop : Option Int) (step : Int) : List Nat :=
  let (first, last) := bounds length start stop step
  (List.range (count first last step)).map fun i : Nat => (first + i * step).toNat

end Selector

section

variable {α : Type}

def itemsAt (positions : List Nat) (items : List α) : List α := positions.filterMap (items[·]?)

def itemsOff (positions : List Nat) (items : List α) : List α :=
  (items.zipIdx.filter fun entry => !positions.contains entry.2).map Prod.fst

/-- The items with some positions filled anew, in the order of the positions. -/
def fillAt (positions : List Nat) (fillers items : List α) : List α :=
  (positions.zip fillers).foldl (fun items entry => items.set entry.1 entry.2) items

/-- The items with those from `first` up to `last` exchanged for others. -/
def spliceAt (first last : Nat) (others items : List α) : List α :=
  items.take first ++ others ++ items.drop (max first last)

end

end TypedHeaders
