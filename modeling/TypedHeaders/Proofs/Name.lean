import Mathlib.Data.List.TakeWhile
import TypedHeaders.Name
import TypedHeaders.Proofs.Text.Title

/-! # The labels of names

The label of an ASCII name has the same characters in another case, so it holds no mark that the
name does not hold, and in lower case it is the name again. A name that is not ASCII has a label only
if every part of it becomes ASCII when it is capitalized.
-/

namespace TypedHeaders.Name

/-! ## Lower case -/

/-- A name with its ASCII letters made small. -/
def lowerAscii (name : String) : String := String.ofList (name.toList.map Char.toLower)

/-- Over ASCII the lowering that keys go through is the plain letter by letter one. -/
theorem lower_text_of_isAscii {name : String} (ascii : Text.IsAscii name.toList) :
    lower (.text name) = .ok (.text (lowerAscii name)) := by
  rw [lower, Text.lower_of_isAscii ascii, lowerAscii]

theorem isAscii_lowerAscii {name : String} (ascii : Text.IsAscii name.toList) :
    Text.IsAscii (lowerAscii name).toList := by
  rw [lowerAscii, String.toList_ofList]
  exact Text.isAscii_map_toLower ascii

/-- Lowering is a normal form: a second time changes nothing. -/
theorem lowerAscii_lowerAscii {name : String} (ascii : Text.IsAscii name.toList) :
    lowerAscii (lowerAscii name) = lowerAscii name := by
  rw [lowerAscii, lowerAscii, String.toList_ofList, Text.map_toLower_map_toLower ascii]

/-- A name without capitals is its own key. -/
theorem lowerAscii_of_hasNoCapital {name : String} (small : Text.HasNoCapital name.toList) :
    lowerAscii name = name := by
  rw [lowerAscii, Text.map_toLower_of_hasNoCapital small, String.ofList_toList]

/-! ## Labels -/

private theorem parts_ne_nil (name : List Char) : parts name ≠ [] := by
  cases name with
  | nil => exact List.cons_ne_nil _ _
  | cons c name =>
    rw [parts]
    split
    · exact List.cons_ne_nil _ _
    · split <;> exact List.cons_ne_nil _ _

/-- The text of parts that are put together again, one character at a time. -/
private theorem intercalate_cons {c : Char} {part : List Char} {others : List (List Char)} :
    ['-'].intercalate ((c :: part) :: others) = c :: ['-'].intercalate (part :: others) := by
  cases others with
  | nil => simp
  | cons other others => simp [List.intercalate_cons_cons]

private theorem intercalate_parts (name : List Char) : ['-'].intercalate (parts name) = name := by
  induction name with
  | nil => rfl
  | cons c name ih =>
    obtain ⟨part, others, split⟩ := List.exists_cons_of_ne_nil (parts_ne_nil name)
    rw [split] at ih
    by_cases hyphen : c = '-'
    · rw [parts, if_pos hyphen, split, List.intercalate_cons_cons, ih, hyphen]
      rfl
    · rw [parts, if_neg hyphen, split]
      simp only [intercalate_cons, ih]

private theorem forall_parts {p : Char → Prop} {name : List Char} (holds : ∀ c ∈ name, p c) :
    ∀ part ∈ parts name, ∀ c ∈ part, p c := by
  induction name with
  | nil => simp [parts]
  | cons c name ih =>
    obtain ⟨here, rest⟩ := List.forall_mem_cons.mp holds
    have rest := ih rest
    obtain ⟨part, others, split⟩ := List.exists_cons_of_ne_nil (parts_ne_nil name)
    rw [parts]
    split
    · exact List.forall_mem_cons.mpr ⟨List.forall_mem_nil _, rest⟩
    · rw [split] at rest ⊢
      obtain ⟨first, others⟩ := List.forall_mem_cons.mp rest
      exact List.forall_mem_cons.mpr ⟨List.forall_mem_cons.mpr ⟨here, first⟩, others⟩

private theorem map_intercalate (f : Char → Char) (hyphen : f '-' = '-') :
    ∀ parts : List (List Char),
      (['-'].intercalate parts).map f = ['-'].intercalate (parts.map (List.map f))
  | [] => rfl
  | [part] => by simp
  | part :: next :: others => by
    have ih := map_intercalate f hyphen (next :: others)
    simp only [List.map_cons, List.intercalate_cons_cons, List.map_append, hyphen, List.map_nil] at ih ⊢
    rw [ih]

/-- In lower case the label of a name is the name. -/
theorem map_toLower_display {name : List Char} (ascii : Text.IsAscii name) :
    (display name).map Char.toLower = name.map Char.toLower := by
  have same : ∀ part ∈ parts name,
      (Text.capitalize part).map Char.toLower = part.map Char.toLower := by
    intro part member
    exact Text.map_toLower_capitalize (forall_parts ascii part member)
  calc (display name).map Char.toLower
      = ['-'].intercalate ((parts name).map fun part => (Text.capitalize part).map Char.toLower) := by
        rw [display, map_intercalate _ rfl, List.map_map]
        rfl
    _ = ['-'].intercalate ((parts name).map (List.map Char.toLower)) := by
        rw [List.map_congr_left same]
    _ = name.map Char.toLower := by rw [← map_intercalate _ rfl, intercalate_parts]

/-- The label of an ASCII name without capital letters is that name in lower case. -/
theorem lowerAscii_display {name : String} (ascii : Text.IsAscii name.toList)
    (small : Text.HasNoCapital name.toList) :
    lowerAscii (String.ofList (display name.toList)) = name := by
  rw [lowerAscii, String.toList_ofList, map_toLower_display ascii]
  exact lowerAscii_of_hasNoCapital small

theorem isAscii_display {name : List Char} (ascii : Text.IsAscii name) :
    Text.IsAscii (display name) := by
  apply Text.isAscii_of_map_toLower
  rw [map_toLower_display ascii]
  exact Text.isAscii_map_toLower ascii

private theorem label_text (name : String) : label (.text name) = ascii (display name.toList) := by
  rw [label, wireCase, Except.bind, String.toList_ofList]

/-- A label that is ASCII goes out as the bytes of its display form. -/
theorem label_of_isAscii {name : String} (ascii : Text.IsAscii (display name.toList)) :
    label (.text name) = .ok (.ofAscii (display name.toList)) := by
  have plain : (display name.toList).takeWhile (fun c => c.toNat < 128) = display name.toList :=
    List.takeWhile_eq_self_iff.mpr fun c member => decide_eq_true (ascii c member)
  rw [label_text, Name.ascii]
  simp only [plain, List.drop_length]

/-- A list not all of whose items are accepted is cut before the first one that is not. -/
theorem exists_first_refused {α : Type} (accepted : α → Prop) {items : List α}
    (refused : ¬ ∀ item ∈ items, accepted item) : ∃ before first rest,
      items = before ++ first :: rest ∧ (∀ item ∈ before, accepted item) ∧ ¬ accepted first := by
  classical
  cases found : items.find? fun item => ¬ accepted item with
  | none => exact (refused (by simpa using found)).elim
  | some first =>
    obtain ⟨stuck, before, rest, rfl, passed⟩ := List.find?_eq_some_iff_append.mp found
    exact ⟨before, first, rest, rfl, by simpa using passed, by simpa using stuck⟩

/-- The failure names the first character that is in the way. -/
theorem label_of_not_isAscii {name : String} (foreign : ¬ Text.IsAscii (display name.toList)) :
    ∃ start stop c, label (.text name) = .error (.notAscii start stop c) ∧
      (display name.toList)[start]? = some c ∧ 128 ≤ c.toNat := by
  obtain ⟨before, c, rest, split, plain, far⟩ := exists_first_refused _ foreign
  have taken : (before ++ c :: rest).takeWhile (fun c => c.toNat < 128) = before := by
    rw [List.takeWhile_append_of_pos (by simpa using plain),
      List.takeWhile_cons_of_neg (by simpa using far), List.append_nil]
  rw [label_text, split]
  refine ⟨before.length, before.length + 1 + foreignRun rest, c, ?_, by simp, by omega⟩
  simp only [Name.ascii, taken, List.drop_left]

/-! ## Which names have a label -/

private theorem isAscii_intercalate_iff : ∀ parts : List (List Char),
    Text.IsAscii (['-'].intercalate parts) ↔ ∀ part ∈ parts, Text.IsAscii part
  | [] => by simp
  | [part] => by simp
  | part :: next :: others => by
    have ih := isAscii_intercalate_iff (next :: others)
    rw [List.intercalate_cons_cons, Text.isAscii_append, Text.isAscii_append, ih,
      List.forall_mem_cons]
    simp

/-- Every part of the name becomes ASCII when it is capitalized, so the name can be written. -/
def IsWritable (name : List Char) : Prop := ∀ part ∈ parts name, Text.EntersAscii part

instance (name : List Char) : Decidable (IsWritable name) :=
  List.decidableBAll Text.EntersAscii (parts name)

/-- The names whose label can be written are those whose letters all enter ASCII when they are
capitalised. -/
theorem isAscii_display_iff (name : List Char) : Text.IsAscii (display name) ↔ IsWritable name := by
  rw [display, isAscii_intercalate_iff, List.forall_mem_map]
  exact forall₂_congr fun part _ => Text.isAscii_capitalize_iff part

/-- A mark that has no case is in the label of a name only if it is in the name. -/
theorem not_mem_label {name : List Char} (ascii : Text.IsAscii name) (mark : Char)
    (small : mark.toNat < 128) (still : mark.toLower = mark) (free : mark ∉ name.map Char.toLower) :
    UInt8.ofNat mark.toNat ∉ Octets.ofAscii (display name) := by
  intro member
  obtain ⟨c, member, same⟩ := List.mem_map.mp member
  have codes := congrArg UInt8.toNat same
  rw [Octets.toNat_ofNat (isAscii_display ascii c member), Octets.toNat_ofNat small] at codes
  have eq : c = mark := by rw [← Char.ofNat_toNat c, codes, Char.ofNat_toNat]
  rw [← map_toLower_display ascii, ← still, ← eq] at free
  exact free (List.mem_map_of_mem member)

private theorem lower_byte_table : ∀ n < 128,
    Char.ofNat (if 65 ≤ UInt8.ofNat n ∧ UInt8.ofNat n ≤ 90 then UInt8.ofNat n + 32
      else UInt8.ofNat n).toNat = (Char.ofNat n).toLower := by decide +kernel

/-- The lower case bytes of ASCII text are those of the text in lower case. -/
theorem map_lower_ofAscii {text : List Char} (ascii : Text.IsAscii text) :
    ((Octets.ofAscii text).lower.map fun b => Char.ofNat b.toNat) = text.map Char.toLower := by
  simp only [Octets.lower, Octets.ofAscii, List.map_map]
  apply List.map_congr_left
  intro c member
  have entry := lower_byte_table c.toNat (ascii c member)
  rwa [Char.ofNat_toNat] at entry

end TypedHeaders.Name
