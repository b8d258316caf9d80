import TypedHeaders.Value

/-! # Equality of values

Numbers are equal when they have the same value, moments when they name the same instant, and bytes
whether or not they may still change. A tagged value equals only a value with the same tag, and so
never a plain tuple that holds the same thing.

What has an identity is equal only to itself: a codec, a stream, a mark made anew, the undefined
number. So every value is found again where it was put.
-/

namespace TypedHeaders

namespace Floating

def sameUndefined (x y : Floating) : Bool :=
  x.isUndefined && y.isUndefined && x.identity == y.identity

end Floating

namespace Moment

/-- Moments are equal when they name the same instant, but one without a zone never equals one
that has a zone. -/
def sameTime (a b : Moment) : Bool :=
  a.offset?.isSome == b.offset?.isSome && a.instant == b.instant

end Moment

namespace Value

def equalNumbers (a b : Value) : Bool :=
  match a, b with
  | .floating x, .floating y => x.value.equal y.value || x.sameUndefined y
  | a, b =>
    match a.number?, b.number? with
    | some x, some y => x.equal y
    | _, _ => false

/-- Equality of two values of which neither contains others. -/
def equalPlain (a b : Value) : Bool :=
  match a, b with
  | .null, .null => true
  | .text s, .text t => s == t
  | .octets x, .octets y | .octets x, .buffer y | .buffer x, .octets y | .buffer x, .buffer y =>
    x == y
  | .date x, .date y => x == y
  | .moment x, .moment y => x.sameTime y
  | .past, .past => true
  | .marker i _, .marker j _ => i == j
  | .codec x, .codec y => x == y
  | .stream i _, .stream j _ => i == j
  | a, b => equalNumbers a b

mutual

def equal : Value → Value → Bool
  | .list xs, .list ys => equalItems xs ys
  | .tuple xs, .tuple ys => equalItems xs ys
  | .mapping xs, .mapping ys => xs.length == ys.length && equalEntries xs ys
  | .tagged tag x, .tagged tag' y => tag == tag' && equal x y
  | .slice a b c, .slice a' b' c' => equal a a' && equal b b' && equal c c'
  | a, b => equalPlain a b

def equalItems : List Value → List Value → Bool
  | [], [] => true
  | x :: xs, y :: ys => equal x y && equalItems xs ys
  | _, _ => false

/-- Whether every entry has one with an equal key and an equal value among the others. -/
def equalEntries : List (Value × Value) → List (Value × Value) → Bool
  | [], _ => true
  | (key, value) :: rest, others =>
    (match others.find? fun other => equal key other.1 with
      | some other => equal value other.2
      | none => false) && equalEntries rest others

end

instance : BEq Value := ⟨equal⟩

/-- Whether two sequences differ in an item or in their length. -/
def differItems : List Value → List Value → Bool
  | [], [] => false
  | x :: xs, y :: ys => !equal x y || differItems xs ys
  | _, _ => true

/-- Whether two values differ. Sequences look for items that are not equal, and a tagged value on either
side asks whether it is equal itself. -/
def differ : Value → Value → Bool
  | .list xs, .list ys | .tuple xs, .tuple ys => differItems xs ys
  | .tagged tag x, b => !equal (.tagged tag x) b
  | a, .tagged tag y => !equal (.tagged tag y) a
  | a, b => !equal a b

/-- The number of values that are left when equal ones are counted once. -/
def distinct (items : List Value) : Nat :=
  (items.foldl (fun kept item => if kept.any (equal · item) then kept else item :: kept) []).length

/-- Entries put into a dictionary one after the other. A key that is there already stays where it
is and takes the new value. -/
def putEntry (entries : List (Value × Value)) (key value : Value) : List (Value × Value) :=
  match entries with
  | [] => [(key, value)]
  | (key', value') :: rest =>
    if equal key' key then (key', value) :: rest else (key', value') :: putEntry rest key value

/-- The dictionary that results from entries of which later ones win. -/
def ofEntries (entries : List (Value × Value)) : Value :=
  .mapping (entries.foldl (fun kept entry => putEntry kept entry.1 entry.2) [])

end Value

end TypedHeaders
