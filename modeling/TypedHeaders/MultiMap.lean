/-! # Multi-maps

Keys with a list of values each, in the order in which the keys were first put in. A key may be
present with no value at all. All access goes through the list under a key.
-/

namespace TypedHeaders

/-- Keys in the order of their first insertion, each with its values. -/
structure MultiMap (κ ν : Type) where
  entries : List (κ × List ν)

namespace MultiMap

variable {κ ν : Type}

def empty : MultiMap κ ν := ⟨[]⟩

instance : Inhabited (MultiMap κ ν) := ⟨empty⟩

/-- The keys in the order of their first insertion. -/
def keys (map : MultiMap κ ν) : List κ := map.entries.map Prod.fst

def size (map : MultiMap κ ν) : Nat := map.entries.length

def pairs (map : MultiMap κ ν) : List (κ × ν) :=
  map.entries.flatMap fun entry => entry.2.map (entry.1, ·)

/-- The map with all keys and values exchanged. Different keys ought to stay different. -/
def map (onKey : κ → κ) (onValue : ν → ν) (map : MultiMap κ ν) : MultiMap κ ν :=
  ⟨map.entries.map fun entry => (onKey entry.1, entry.2.map onValue)⟩

variable [BEq κ]

/-- The values under a key, if it is present. -/
def find? (map : MultiMap κ ν) (key : κ) : Option (List ν) :=
  (map.entries.find? (·.1 == key)).map Prod.snd

def contains (map : MultiMap κ ν) (key : κ) : Bool := (map.find? key).isSome

/-- Entries with the values under a key exchanged, or with the key added at the end. -/
def putEntry (key : κ) (values : List ν) : List (κ × List ν) → List (κ × List ν)
  | [] => [(key, values)]
  | entry :: rest =>
    if entry.1 == key then (entry.1, values) :: rest else entry :: putEntry key values rest

/-- The map in which a key has these values. A new key comes last. -/
def put (key : κ) (values : List ν) (map : MultiMap κ ν) : MultiMap κ ν :=
  ⟨putEntry key values map.entries⟩

def erase (key : κ) (map : MultiMap κ ν) : MultiMap κ ν :=
  ⟨map.entries.filter fun entry => !(entry.1 == key)⟩

/-- The map in which a key has these values, and goes if there are none. -/
def settle (key : κ) (values : List ν) (map : MultiMap κ ν) : MultiMap κ ν :=
  if values.isEmpty then map.erase key else map.put key values

/-- Whether two maps have the same keys with equal values, in whatever order. -/
def equal [BEq ν] (a b : MultiMap κ ν) : Bool :=
  a.size == b.size && a.entries.all fun entry =>
    match b.find? entry.1 with
    | some values => entry.2 == values
    | none => false

end MultiMap

end TypedHeaders
