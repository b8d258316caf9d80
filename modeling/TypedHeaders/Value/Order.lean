import TypedHeaders.Error
import TypedHeaders.Value.Equality

/-! # Order of values

Numbers, texts, bytes and moments are ordered among their like, and sequences and selections by the
first pair of parts that differ. A tagged value is ordered as the tuple that holds the same thing,
whatever its tag.
-/

namespace TypedHeaders

/-- The four comparisons of an order. -/
inductive Comparison where
  | less
  | lessOrEqual
  | greater
  | greaterOrEqual
deriving DecidableEq, Repr

namespace Comparison

def sign : Comparison → String
  | .less => "<"
  | .lessOrEqual => "<="
  | .greater => ">"
  | .greaterOrEqual => ">="

def swap : Comparison → Comparison
  | .less => .greater
  | .lessOrEqual => .greaterOrEqual
  | .greater => .less
  | .greaterOrEqual => .lessOrEqual

/-- Whether the comparison holds between sides that are less, equal or greater. -/
def holds : Comparison → Ordering → Bool
  | .less, .lt => true
  | .lessOrEqual, .lt | .lessOrEqual, .eq => true
  | .greater, .gt => true
  | .greaterOrEqual, .gt | .greaterOrEqual, .eq => true
  | _, _ => false

end Comparison

/-- The order of two sequences of code points or bytes by the first difference. -/
def lexicographic : List Nat → List Nat → Ordering
  | [], [] => .eq
  | [], _ :: _ => .lt
  | _ :: _, [] => .gt
  | x :: xs, y :: ys => if x = y then lexicographic xs ys else if x < y then .lt else .gt

namespace Value

/-- The characters or bytes that order a text or a byte string, with whether it is a text. -/
def units? : Value → Option (Bool × List Nat)
  | .text s => some (true, s.toList.map Char.toNat)
  | .octets data | .buffer data => some (false, data.map UInt8.toNat)
  | _ => none

/-- The comparison of two numbers, which fails to hold where one of them is undefined. -/
def compareNumbers (how : Comparison) (x y : Extended) : Bool :=
  match how with
  | .less => x.less y
  | .lessOrEqual => x.less y || x.equal y
  | .greater => y.less x
  | .greaterOrEqual => y.less x || x.equal y

/-- The report that two values are not ordered, seen from the right one if `fromRight`. -/
def notOrdered (how : Comparison) (fromRight : Bool) (a b : Value) : Error :=
  .wrongType (if fromRight then .notOrdered how.swap.sign b.typeName a.typeName
    else .notOrdered how.sign a.typeName b.typeName)

/-- The comparison of two values of which neither is a sequence of values. -/
def comparePlain (how : Comparison) (fromRight : Bool) (a b : Value) : Except Error Bool :=
  match a, b with
  | .date x, .date y => .ok (how.holds (compare x.ordinal y.ordinal))
  | .moment x, .moment y =>
    if x.offset?.isSome = y.offset?.isSome then .ok (how.holds (compare x.instant y.instant))
    else .error (.wrongType .zonedWithUnzoned)
  | .date _, .moment _ | .moment _, .date _ => .error (.wrongType .momentWithDay)
  | a, b =>
    match a.number?, b.number?, a.units?, b.units? with
    | some x, some y, _, _ => .ok (compareNumbers how x y)
    | _, _, some (isText, xs), some (isText', ys) =>
      if isText = isText' then .ok (how.holds (lexicographic xs ys))
      else .error (notOrdered how fromRight a b)
    | _, _, _, _ => .error (notOrdered how fromRight a b)

mutual

/-- Whether a comparison holds between two values, if they are ordered at all. A tagged value
beside a plain tuple is asked first, which shows in the report of a failure. -/
def compareFrom (how : Comparison) (fromRight : Bool) : Value → Value → Except Error Bool
  | .list xs, .list ys => compareItems how fromRight xs ys
  | .tuple xs, .tuple ys => compareItems how fromRight xs ys
  | .tuple xs, .tagged _ y => compareItems how true xs [y]
  | .tagged _ _, .tuple [] => pure (how.holds .gt)
  | .tagged _ x, .tuple (y :: ys) =>
    if equal x y then pure (how.holds (if ys.isEmpty then .eq else .lt))
    else compareFrom how false x y
  | .tagged _ x, .tagged _ y =>
    if equal x y then pure (how.holds .eq) else compareFrom how fromRight x y
  | .slice a b c, .slice a' b' c' =>
    if !equal a a' then compareFrom how fromRight a a'
    else if !equal b b' then compareFrom how fromRight b b'
    else if !equal c c' then compareFrom how fromRight c c'
    else pure (how.holds .eq)
  | a, b => comparePlain how fromRight a b

/-- The comparison of sequences by the first pair of items that differ. -/
def compareItems (how : Comparison) (fromRight : Bool) :
    List Value → List Value → Except Error Bool
  | [], [] => pure (how.holds .eq)
  | [], _ :: _ => pure (how.holds .lt)
  | _ :: _, [] => pure (how.holds .gt)
  | x :: xs, y :: ys =>
    if equal x y then compareItems how fromRight xs ys else compareFrom how fromRight x y

end

/-- Whether a comparison holds between two values, if they are ordered at all. -/
def compareBy (how : Comparison) (a b : Value) : Except Error Bool := compareFrom how false a b

end Value

end TypedHeaders
