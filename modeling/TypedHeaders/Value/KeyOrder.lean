import TypedHeaders.Value.Order

/-! # The order of keys

A layout shows the entries of a dictionary in the order of their keys. Keys that are ordered by
themselves keep that order, and others go by the kind of value that they are. Such an order may run
in circles, so the way in which keys are put in order is part of the rule: the longest run at the
beginning is taken as it is, and every further entry is put into its place by halving.
-/

namespace TypedHeaders.Value

/-- The place of a kind of value among the kinds, first by group and then by name within it. -/
def rank : Value → Nat × String
  | .null => (0, "")
  | .codec c => (if c.identity.made = 0 then 3 else 1, c.className)
  | .tagged tag _ => (3, tag.name)
  | .past | .marker .. => (4, "")
  | .integer _ => (5, "int")
  | .list _ => (5, "list")
  | .stream .. => (5, "list_iterator")
  | .slice .. => (5, "slice")
  | .text _ => (5, "str")
  | .tuple _ => (5, "tuple")
  | value => (2, value.typeName)

def rankBefore (a b : Value) : Bool :=
  a.rank.1 < b.rank.1 || (a.rank.1 == b.rank.1 && decide (a.rank.2 < b.rank.2))

/-- Whether a key comes before another: by their own order, or else by that of their kinds. -/
def keyBefore (a b : Value) : Bool :=
  match compareBy .less a b with
  | .ok less => less
  | .error _ => rankBefore a b

section

variable {α : Type}

/-- The items that follow `last` as long as each is before the one ahead of it exactly if
`falling`, and the items after those. -/
def runAfter (before : α → α → Bool) (falling : Bool) (last : α) : List α → List α × List α
  | [] => ([], [])
  | item :: rest =>
    if before item last = falling then
      let (run, others) := runAfter before falling item rest
      (item :: run, others)
    else ([], item :: rest)

/-- The longest run at the beginning, brought into rising order, and the items after it. -/
def firstRun (before : α → α → Bool) : List α → List α × List α
  | [] => ([], [])
  | [item] => ([item], [])
  | first :: second :: rest =>
    let falling := before second first
    let (run, others) := runAfter before falling second rest
    let run := first :: second :: run
    (if falling then run.reverse else run, others)

/-- Items with one more put in after all those in the middle that it is not before. Every step
halves the items, so `fuel` need not be more than their number. -/
def insertHalving (before : α → α → Bool) (item : α) : Nat → List α → List α
  | 0, items => item :: items
  | fuel + 1, items =>
    match items.drop (items.length / 2) with
    | [] => [item]
    | middle :: upper =>
      let lower := items.take (items.length / 2)
      if before item middle then insertHalving before item fuel lower ++ middle :: upper
      else lower ++ middle :: insertHalving before item fuel upper

/-- Items in order: the first run, and every further item put into its place. -/
def sortRuns (before : α → α → Bool) (items : List α) : List α :=
  let (run, others) := firstRun before items
  others.foldl (fun sorted item => insertHalving before item sorted.length sorted) run

end

def sortEntries (entries : List (Value × Value)) : List (Value × Value) :=
  sortRuns (fun a b => keyBefore a.1 b.1) entries

mutual

/-- A value with the entries of its dictionaries in the order of their keys. -/
def ordered : Value → Value
  | .list items => .list (orderedItems items)
  | .tuple items => .tuple (orderedItems items)
  | .mapping entries => .mapping (sortEntries (orderedEntries entries))
  | value => value

def orderedItems : List Value → List Value
  | [] => []
  | item :: rest => ordered item :: orderedItems rest

def orderedEntries : List (Value × Value) → List (Value × Value)
  | [] => []
  | (key, value) :: rest => (ordered key, ordered value) :: orderedEntries rest

end

end TypedHeaders.Value
