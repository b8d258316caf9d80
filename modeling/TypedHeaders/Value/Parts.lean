import TypedHeaders.Mark
import TypedHeaders.Selector
import TypedHeaders.Value.Digest
import TypedHeaders.Value.Order

/-! # Parts of values

Values have lengths, items, sums and parts with names. A tagged value can be used as the tuple of
the one thing that it holds; its sum with another tuple and the tuple itself carry no tag any more.
-/

namespace TypedHeaders.Value

/-- The items of a tuple, tagged or not. -/
def tupleItems? : Value → Option (List Value)
  | .tuple items => some items
  | .tagged _ content => some [content]
  | _ => none

def length (value : Value) : Except Error Nat :=
  match value with
  | .stream .. => .error (.wrongType (.notSized value.typeName))
  | value =>
    match value.items? with
    | some items => .ok items.length
    | none => .error (.wrongType (.notSized value.typeName))

/-- Whether a value counts as true: all do but nothing, zero, and what is empty. -/
def truth (value : Value) : Bool :=
  match value with
  | .null => false
  | .stream .. => true
  | value =>
    match value.number?, value.items? with
    | some n, _ => !n.equal (.ofInt 0)
    | none, some items => !items.isEmpty
    | none, none => true

def toTuple (value : Value) : Except Error Value := value.iterate.map .tuple

def ofNat (n : Nat) : Value := .integer n

def namedParts : Value → List (String × Value)
  | .tagged tag content =>
    [(tag.content, content), ("_fields", .tuple [.text tag.content]),
     ("_field_defaults", .mapping []), ("__match_args__", .tuple [.text tag.content]),
     ("__slots__", .tuple [])]
  | .date day => ofDay day
  | .moment when =>
    ofDay when.date ++
      [("hour", ofNat when.clock.hour), ("minute", ofNat when.clock.minute),
       ("second", ofNat when.clock.second), ("microsecond", ofNat when.clock.micro),
       ("fold", ofNat 0)] ++
      if when.offset?.isNone then [("tzinfo", .null)] else []
  | .codec c =>
    ("header", c.header.elim .null .text) ::
      match c.kind with
      | .integer range => [("signed", .boolean range.signed), ("bits", ofNat range.bits)]
      | _ => []
  | .past => [("_ident", .text Mark.name), (Mark.name, .past)]
  | .marker _ ident => [("_ident", ident), (Mark.name, .past)]
  | .slice start stop step => [("start", start), ("stop", stop), ("step", step)]
  | value =>
    match value.whole? with
    | some n =>
      [("real", .integer n), ("imag", ofNat 0), ("numerator", .integer n), ("denominator", ofNat 1)]
    | none => []
where
  /-- The fields of a day. -/
  ofDay (day : CivilDate) : List (String × Value) :=
    [("year", ofNat day.year), ("month", ofNat day.month), ("day", ofNat day.day)]

def part (value : Value) (name : String) : Except Error Value :=
  match value.namedParts.lookup name with
  | some part => .ok part
  | none => .error (.noAttribute (.ofObject value.typeName name))

/-- What a tagged value holds, with the name that it has there. -/
def toMapping (value : Value) : Except Error Value :=
  match value with
  | .tagged tag content => .ok (.mapping [(.text tag.content, content)])
  | value => .error (.noAttribute (.ofObject value.typeName "_asdict"))

/-- The item of a sequence at an index, or those at a series of positions gathered as `many`. -/
def select {α : Type} (kind : Sequence) (one : α → Value) (many : List α → Value) (items : List α)
    (index : Value) : Except Error Value := do
  match ← Selector.ofValue kind index with
  | .index i =>
    match (Selector.position? items.length i).bind (items[·]?) with
    | some item => pure (one item)
    | none => throw (.outOfBounds (.reading kind))
  | .series start stop step =>
    pure (many (itemsAt (Selector.positions items.length start stop step) items))

def entry (entries : List (Value × Value)) (key : Value) : Except Error Value := do
  let _ ← key.hashed
  match entries.find? fun entry => equal entry.1 key with
  | some found => pure found.2
  | none => throw (.missing (some key))

/-- An item of a sequence, or a series of them, or the value under a key of a dictionary. -/
def item (value index : Value) : Except Error Value :=
  match value with
  | .text s => select .text ofChar (fun text => .text (String.ofList text)) s.toList index
  | .octets data => select .octets ofByte .octets data index
  | .buffer data => select .buffer ofByte .buffer data index
  | .list items => select .list id .list items index
  | .tuple items => select .tuple id .tuple items index
  | .tagged _ content => select .tuple id .tuple [content] index
  | .mapping entries => entry entries index
  | value => .error (.wrongType (.notSubscriptable value.typeName))

/-- The kind of sequence that a value is, if it is one. -/
def sequence? : Value → Option Sequence
  | .text _ => some .text
  | .octets _ => some .octets
  | .buffer _ => some .buffer
  | .list _ => some .list
  | .tuple _ | .tagged .. => some .tuple
  | _ => none

def octets? : Value → Option Octets
  | .octets data | .buffer data => some data
  | _ => none

/-- One sequence after another of its kind, where a tuple may be tagged. -/
def joined (a b : Value) : Option Value :=
  match a, b with
  | .text s, .text t => some (.text (s ++ t))
  | .octets data, b => b.octets?.map fun others => .octets (data ++ others)
  | .buffer data, b => b.octets?.map fun others => .buffer (data ++ others)
  | .list items, .list others => some (.list (items ++ others))
  | a, b => do pure (.tuple ((← a.tupleItems?) ++ (← b.tupleItems?)))

def sum (a b : Value) : Except Error Value :=
  match joined a b, a.sequence?, a.whole?, b.whole? with
  | some value, _, _, _ => .ok value
  | none, some kind, _, _ => .error (.wrongType (.notJoinable kind b.typeName))
  | none, none, some m, some n => .ok (.integer (m + n))
  | none, none, _, _ => .error (.wrongType (.noSum a.typeName b.typeName))

def sameDigest (a b : Value) : Except Error Bool := do
  let x ← a.hashed
  let y ← b.hashed
  pure (x == y)

/-- The number of different values, each of which has to have a digest. -/
def countDistinct (items : List Value) : Except Error Nat := do
  let _ ← items.mapM hashed
  pure (distinct items)

end TypedHeaders.Value
