/-! # Identities

Some things are the same only as themselves, however alike they look: two codecs made from one
description, two streams, two undefined numbers. An identity tells such things apart.
-/

namespace TypedHeaders

/-- Where a thing was made, and through which deep copies it came. -/
structure Identity where
  /-- The number of the thing among those that were made anew, and zero for what is shared. -/
  made : Nat
  /-- The places to which it was copied, the last one first. -/
  copies : List Nat
deriving DecidableEq, Repr

namespace Identity

/-- The identity of what is there from the start and shared by all who name it. -/
def shared : Identity := ⟨0, []⟩

/-- The identity of the thing that was made after `n` others. -/
def new (n : Nat) : Identity := ⟨n + 1, []⟩

/-- The identity of the deep copy at a place. Within one place a thing has one copy. -/
def copied (place : Nat) (identity : Identity) : Identity :=
  { identity with copies := place :: identity.copies }

end Identity

end TypedHeaders
