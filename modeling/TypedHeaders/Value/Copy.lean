import TypedHeaders.Value

/-! # Deep copies

A deep copy is built anew down to the last part. Most values do not show this, because they equal
whatever looks the same. A codec or a stream is another one in the copy, and the same one wherever
it was the same before. Numbers and marks are not built anew.
-/

namespace TypedHeaders.Value

mutual

/-- The deep copy of a value at a place. -/
def copied (place : Nat) : Value → Value
  | .list items => .list (copiedItems place items)
  | .tuple items => .tuple (copiedItems place items)
  | .mapping entries => .mapping (copiedEntries place entries)
  | .tagged tag content => .tagged tag (copied place content)
  | .codec c => .codec (c.renewed place)
  | .stream identity items => .stream (identity.copied place) (copiedItems place items)
  | .slice start stop step => .slice (copied place start) (copied place stop) (copied place step)
  | value => value

def copiedItems (place : Nat) : List Value → List Value
  | [] => []
  | item :: rest => copied place item :: copiedItems place rest

def copiedEntries (place : Nat) : List (Value × Value) → List (Value × Value)
  | [] => []
  | (key, value) :: rest => (copied place key, copied place value) :: copiedEntries place rest

end

end TypedHeaders.Value
