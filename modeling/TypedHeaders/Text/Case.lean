import TypedHeaders.Text.CaseTable

/-! # Letter case of names

Header names are compared in lower case and written with each part capitalized. Both follow the
full Unicode mappings: a letter may expand into several, and a capital sigma takes the form that its
neighbours in the word call for.
-/

namespace TypedHeaders.Text

/-- The character that a run of a table moves `code` to, if the table moves it at all. -/
def shifted? (code : Nat) : List CaseRun → Option Char
  | [] => none
  | run :: rest =>
    if code < run.first then none
    else if code ≤ run.last ∧ (code - run.first) % run.stride = 0 then
      some (Char.ofNat (Int.toNat (code + run.shift)))
    else shifted? code rest

/-- The characters that a table expands `code` into, if it expands it at all. -/
def expanded? (code : Nat) (table : List (Nat × List Nat)) : Option (List Char) :=
  (table.lookup code).map (·.map Char.ofNat)

/-- Whether an ascending table of ranges covers `code`. -/
def covered (code : Nat) : List (Nat × Nat) → Bool
  | [] => false
  | range :: rest =>
    if code < range.1 then false
    else if code ≤ range.2 then true
    else covered code rest

/-- One character under a case mapping: moved, expanded, or left alone. -/
def mapped (runs : List CaseRun) (expansions : List (Nat × List Nat)) (c : Char) : List Char :=
  match shifted? c.toNat runs with
  | some moved => [moved]
  | none => (expanded? c.toNat expansions).getD [c]

/-- The title case form of one character, which begins a capitalized word. -/
def title (c : Char) : List Char := mapped titleRuns titleExpansions c

/-- Whether a search past case-ignorable characters meets a cased letter first. -/
def meetsCased (text : List Char) : Bool :=
  match text.dropWhile fun c => covered c.toNat caseIgnorableRanges with
  | [] => false
  | c :: _ => covered c.toNat casedRanges

/-- A sigma takes its final form when a cased letter precedes it and none follows.
`before` is what precedes it, nearest character first. -/
def smallSigma (before after : List Char) : Char :=
  if meetsCased before && !meetsCased after then 'ς' else 'σ'

/-- The lower case form of `text` when it follows `before`, nearest character first. -/
def lowerAfter (before : List Char) : List Char → List Char
  | [] => []
  | c :: rest =>
    (if c = 'Σ' then [smallSigma before rest] else mapped lowerRuns lowerExpansions c) ++
      lowerAfter (c :: before) rest

def lower (text : List Char) : List Char := lowerAfter [] text

/-- A word whose first character is in title case and whose others are in lower case. -/
def capitalize : List Char → List Char
  | [] => []
  | c :: rest => title c ++ lowerAfter [c] rest

end TypedHeaders.Text
