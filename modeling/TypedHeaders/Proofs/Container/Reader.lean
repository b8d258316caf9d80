import TypedHeaders.Octets

/-! # A reader of header lines

The reader cuts at the first line end and goes on behind it, and cuts each line at its first colon
followed by a blank. A value may hold colons, lone returns and lone feeds: since the two bytes of a
mark differ, no mark begins in a line that has none and ends in the mark behind it.
-/

namespace TypedHeaders.Octets

/-- Data before and behind the first place where two bytes stand side by side. -/
def cut? (a b : UInt8) : Octets → Option (Octets × Octets)
  | x :: y :: rest =>
    if x = a ∧ y = b then some ([], rest)
    else (cut? a b (y :: rest)).map fun parts => (x :: parts.1, parts.2)
  | _ => none

/-- Cutting takes a line off the front and drops the two bytes that end it. -/
theorem cut?_sound {a b : UInt8} {data line rest : Octets}
    (parts : cut? a b data = some (line, rest)) : data = line ++ a :: b :: rest := by
  fun_induction cut? a b data generalizing line with
  | case1 x y data here =>
    cases parts
    rw [here.1, here.2, List.nil_append]
  | case2 x y data apart ih =>
    obtain ⟨⟨line', rest'⟩, later, eq⟩ := Option.map_eq_some_iff.mp parts
    cases eq
    rw [ih later, List.cons_append]
  | case3 => cases parts

private theorem cut?_cons {a b x : UInt8} {data : Octets}
    (apart : ¬ (x = a ∧ data.head? = some b)) :
    cut? a b (x :: data) = (cut? a b data).map fun parts => (x :: parts.1, parts.2) := by
  cases data with
  | nil => rfl
  | cons y data =>
    rw [List.head?_cons, Option.some.injEq] at apart
    rw [cut?, if_neg apart]

/-- A line without the two bytes is cut off whole. -/
theorem cut?_append {a b : UInt8} (ne : a ≠ b) {line : Octets} (free : ¬ [a, b] <:+: line)
    (rest : Octets) : cut? a b (line ++ a :: b :: rest) = some (line, rest) := by
  induction line with
  | nil => simp [cut?]
  | cons x line ih =>
    have apart : ¬ (x = a ∧ (line ++ a :: b :: rest).head? = some b) := by
      rintro ⟨rfl, next⟩
      cases line with
      | nil => exact ne (Option.some.inj next)
      | cons y line =>
        cases next
        exact free ⟨[], line, rfl⟩
    rw [List.cons_append, cut?_cons apart, ih fun inside => free (List.infix_cons inside)]
    rfl

/-- The lines of data in which every line is ended. -/
def lines? (data : Octets) : Option (List Octets) :=
  if data = [] then some []
  else match _parts : cut? 13 10 data with
    | none => none
    | some (line, rest) => (lines? rest).map (line :: ·)
termination_by data.length
decreasing_by
  rw [cut?_sound _parts]
  simp only [List.length_append, List.length_cons]
  omega

@[simp]
theorem lines?_nil : lines? [] = some [] := by simp [lines?]

/-- A line that ends in CR LF is the first of the lines. -/
theorem lines?_append {line : Octets} (free : ¬ [13, 10] <:+: line) (rest : Octets) :
    lines? (line ++ 13 :: 10 :: rest) = (lines? rest).map (line :: ·) := by
  have cut := cut?_append (by decide) free rest
  rw [lines?, if_neg (by simp)]
  split
  · rename_i none
    rw [cut] at none
    cases none
  · rename_i parts
    rw [cut] at parts
    cases parts
    rfl

/-- The field of a line: its name in lower case, and its value. -/
def field? (line : Octets) : Option (String × Octets) :=
  (cut? 58 32 line).map fun parts =>
    (String.ofList (parts.1.lower.map fun b => Char.ofNat b.toNat), parts.2)

/-- The fields of data that hold nothing but lines. -/
def fields? (data : Octets) : Option (List (String × Octets)) :=
  (lines? data).bind (List.mapM field?)

end TypedHeaders.Octets
