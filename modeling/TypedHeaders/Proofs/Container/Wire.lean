import TypedHeaders.Proofs.Codec.RoundTrip
import TypedHeaders.Proofs.Container.Copies
import TypedHeaders.Proofs.Container.Reader

/-! # Headers are read as they were written

From the lines that headers are written in, the reader finds every field again under its name: a name
is never cut, because it holds no mark, and the first mark that follows it is the one that was put
there. Fields of one name keep their order, and names come sorted, so reading gives what is listed,
and adding it to empty headers gives the same headers.
-/

namespace TypedHeaders

/-! ## One line -/

/-- A mark that begins with a byte that the beginning lacks lies behind it. -/
theorem Octets.infix_of_not_mem {a b : UInt8} {beginning rest : Octets} (lacks : a ∉ beginning)
    (inside : [a, b] <:+: beginning ++ rest) : [a, b] <:+: rest := by
  induction beginning with
  | nil => exact inside
  | cons x beginning ih =>
    obtain ⟨ne, lacks⟩ := not_or.mp (List.mem_cons.not.mp lacks)
    rcases List.infix_cons_iff.mp inside with starts | inside
    · exact (ne (List.cons_prefix_cons.mp starts).1).elim
    · exact ih lacks inside

namespace Container

/-- A name that can be cut off the line that it begins: ASCII in lower case, without marks. -/
structure IsWireName (name : String) : Prop where
  ascii : Text.IsAscii name.toList
  small : Text.HasNoCapital name.toList
  noColon : ':' ∉ name.toList
  noReturn : '\r' ∉ name.toList

/-- The label of a wire name has neither the colon nor the line break a reader would stop at. -/
theorem IsWireName.not_mem_label {name : String} (isWire : IsWireName name) :
    58 ∉ Octets.ofAscii (Name.display name.toList) ∧
      13 ∉ Octets.ofAscii (Name.display name.toList) := by
  have same := Text.map_toLower_of_hasNoCapital isWire.small
  have noColon : ':' ∉ name.toList.map Char.toLower := by
    rw [same]
    exact isWire.noColon
  have noReturn : '\r' ∉ name.toList.map Char.toLower := by
    rw [same]
    exact isWire.noReturn
  exact ⟨Name.not_mem_label isWire.ascii ':' (by decide) (by decide) noColon,
    Name.not_mem_label isWire.ascii '\r' (by decide) (by decide) noReturn⟩

private theorem field?_line {name : String} (isWire : IsWireName name) (data : Octets) :
    Octets.field? (.ofAscii (Name.display name.toList) ++ 58 :: 32 :: data) = some (name, data) := by
  have free : ¬ [58, 32] <:+: Octets.ofAscii (Name.display name.toList) := by
    intro inside
    exact isWire.not_mem_label.1 (inside.subset (List.mem_cons_self ..))
  have lower := Name.map_lower_ofAscii (Name.isAscii_display isWire.ascii)
  rw [Octets.field?, Octets.cut?_append (by decide) free]
  simp only [Option.map_some, lower, Name.map_toLower_display isWire.ascii,
    Text.map_toLower_of_hasNoCapital isWire.small, String.ofList_toList]

private theorem mapM_map_eq_some {α β : Type} {onItem : α → β} {back? : β → Option α}
    {items : List α} (inverse : ∀ item ∈ items, back? (onItem item) = some item) :
    (items.map onItem).mapM back? = some items := by
  induction items with
  | nil => rfl
  | cons item items ih =>
    obtain ⟨here, rest⟩ := List.forall_mem_cons.mp inverse
    simp only [List.map_cons, List.mapM_cons, here, ih rest, bind, pure, Option.bind_some]

/-- Fields are read from their lines as they were written. -/
theorem fields?_wireLines {pairs : List (String × Octets)}
    (isWire : ∀ pair ∈ pairs, IsWireName pair.1 ∧ ¬ [13, 10] <:+: pair.2) :
    Octets.fields? (pairs.map wireLine).flatten = some pairs := by
  let line (pair : String × Octets) : Octets :=
    .ofAscii (Name.display pair.1.toList) ++ 58 :: 32 :: pair.2
  have ended (pair : String × Octets) (rest : Octets) :
      wireLine pair ++ rest = line pair ++ 13 :: 10 :: rest := by
    have mark : Octets.ofPhrase ": " = [58, 32] := by decide
    simp only [wireLine, mark, line, List.append_assoc, List.cons_append, List.nil_append]
  have whole : ∀ pair ∈ pairs, ¬ [13, 10] <:+: line pair := by
    intro pair member inside
    obtain ⟨name, free⟩ := isWire pair member
    have lacks : 13 ∉ Octets.ofAscii (Name.display pair.1.toList) ++ [58, 32] := by
      simpa using name.not_mem_label.2
    refine free (Octets.infix_of_not_mem lacks ?_)
    simpa only [line, List.append_assoc, List.cons_append, List.nil_append] using inside
  have lines : Octets.lines? (pairs.map wireLine).flatten = some (pairs.map line) := by
    clear isWire
    induction pairs with
    | nil => exact Octets.lines?_nil
    | cons pair pairs ih =>
      obtain ⟨here, rest⟩ := List.forall_mem_cons.mp whole
      rw [List.map_cons, List.flatten_cons, ended, Octets.lines?_append here, ih rest]
      rfl
  have each : (pairs.map line).mapM Octets.field? = some pairs :=
    mapM_map_eq_some fun pair member => field?_line (isWire pair member).1 pair.2
  rw [Octets.fields?, lines, Option.bind_some, each]

/-! ## Headers that can be read back -/

/-- The name of every field is ASCII without a colon and without the marks of a line end, no name is
without fields, and all fields are bytes that hold no line end. -/
structure FitsWire (container : Container) : Prop where
  names : ∀ entry ∈ container.fields.entries, ∃ name : String, entry.1 = .text name ∧
    Text.IsAscii name.toList ∧ ':' ∉ name.toList ∧ '\r' ∉ name.toList ∧ '\n' ∉ name.toList
  filled : ∀ entry ∈ container.fields.entries, entry.2 ≠ []
  fields : ∀ entry ∈ container.fields.entries, ∀ field ∈ entry.2, ∃ data,
    field = .octets data ∧ ¬ [13, 10] <:+: data

namespace FitsWire

variable {container : Container} {typeName : String} {attributes : List (String × Option Codec)}

/-- The keys of a container that fits the wire are wire names. -/
theorem isWireName (fits : container.FitsWire) (keyed : KeyedAsHeaders container.fields)
    {key : Value} (member : key ∈ container.fields.keys) :
    ∃ name, key = .text name ∧ IsWireName name := by
  obtain ⟨entry, held, rfl⟩ := List.mem_map.mp member
  obtain ⟨name, eq, ascii, noColon, noReturn, -⟩ := fits.names entry held
  rcases keyed.keys _ member with ⟨name', eq', small⟩ | ⟨data, eq'⟩
  · cases eq.symm.trans eq'
    exact ⟨name, eq, ascii, small, noColon, noReturn⟩
  · cases eq.symm.trans eq'

private theorem names_of_isWireName {name : String} (isWire : IsWireName name) :
    Profile.Names (.headers typeName attributes) (.text name) name :=
  .of_hasNoCapital isWire.ascii isWire.small

theorem holdsBytes (fits : container.FitsWire) : container.HoldsBytes where
  names entry member := (fits.names entry member).imp fun _ named => ⟨named.1, named.2.1⟩
  fields entry member field held := (fits.fields entry member field held).imp fun _ => And.left

/-- The fields of a container that fits the wire are bytes without a line break. -/
theorem octets (fits : container.FitsWire) (name : Value) :
    ∀ field ∈ container.fieldsOf name, ∃ data, field = .octets data ∧ ¬ [13, 10] <:+: data := by
  intro field held
  obtain ⟨entry, member, held⟩ := exists_entry_of_mem_fieldsOf held
  exact fits.fields entry member field held

/-- Headers that can be read back hold byte strings, under names that can be cut off their lines. -/
theorem holdsOctets (fits : container.FitsWire) (keyed : KeyedAsHeaders container.fields) :
    ∃ names data, HoldsOctets container names data ∧ names.Nodup ∧
      (∀ name ∈ names, IsWireName name) ∧ ∀ name, ∀ piece ∈ data name, ¬ [13, 10] <:+: piece := by
  obtain ⟨names, data, holds, distinct, -⟩ := fits.holdsBytes.holdsOctets keyed.distinct
  refine ⟨names, data, holds, distinct, ?_, ?_⟩
  · intro name member
    have key : Value.text name ∈ container.fields.keys := by simpa [holds.keys] using member
    obtain ⟨_, same, isWire⟩ := fits.isWireName keyed key
    cases same
    exact isWire
  · intro name piece member
    have held : Value.octets piece ∈ container.fieldsOf (.text name) := by
      rw [holds.fields]
      exact List.mem_map_of_mem member
    obtain ⟨_, same, free⟩ := fits.octets _ _ held
    cases same
    exact free

end FitsWire

/-- The field that a typed value is stored as holds no line end. -/
theorem setValue_free {container after : Container} {codec : Codec} {value result : Value}
    (set : perform (.setValue (.codec codec) value) container = (.ok result, after)) :
    ∃ key data, container.profile.slot (.codec codec) = .ok key ∧
      after = container.assign key (some [.octets data]) ∧ ¬ [13, 10] <:+: data := by
  have headers : container.profile ≠ .plain := by
    intro plain
    rw [perform, Operation.action, onHeaders, bind_apply_of_ok (current_apply container), plain] at set
    cases set
  rw [perform, Operation.action, onHeaders_apply headers, silently_apply] at set
  cases stored : (setValue (.codec codec) value container).1 with
  | error error => simp [stored, Except.map] at set
  | ok _ =>
    obtain ⟨key, slot⟩ := exists_slot_of_setValue stored
    rw [setValue_apply slot] at set
    cases written : codec.encode value with
    | error error => simp [encoded, written, Except.map, leave] at set
    | ok data =>
      simp only [encoded, written, Except.map, leave, Prod.mk.injEq] at set
      refine ⟨key, data, slot, set.2.symm, ?_⟩
      intro inside
      obtain ⟨text, plain, rfl⟩ := Codec.isPlainText_of_encode written
      obtain ⟨c, member, same⟩ := List.mem_map.mp (inside.subset (List.mem_cons_self ..))
      have visible := plain c member
      have code := congrArg UInt8.toNat same
      rw [Octets.toNat_ofNat (by omega)] at code
      change c.toNat = 13 at code
      omega

/-- In every run that starts with headers, whatever is done to them: headers that can be read back
are written without a failure to a sink that takes everything, and reading what was written gives the
fields that they list, which are sorted by name and of one name in their order. Added one by one to
empty headers, these fields make equal headers. And all that typed values store can be read back. -/
theorem fields?_write_of_run (typeName : String) (attributes : List (String × Option Codec))
    (register : String) (steps : List (String × Session.Step)) {target : String}
    {container : Container} (found : ((Session.start (.headers typeName attributes) register).run
      steps).container? target = some container) :
    (container.FitsWire → ∃ pairs : List (String × Octets),
      container.listed = .ok (pairs.map fun pair => (.text pair.1, .octets pair.2)) ∧
      (container.write .unlimited).1 = .ok () ∧
      Octets.fields? (container.write .unlimited).2.contents = some pairs ∧
      (pairs.Pairwise fun a b => a.1 ≤ b.1) ∧
      (∀ name, container.fieldsOf (.text name) =
        (pairs.filter (·.1 = name)).map fun pair => .octets pair.2) ∧
      (perform (.equals (.container container))
        (after (pairs.map fun pair => .addField (.text pair.1) (.octets pair.2))
          (.new container.profile))).1 = .ok (.boolean true)) ∧
    ∀ codec value result after,
      perform (.setValue (.codec codec) value) container = (.ok result, after) →
        ∃ key data, container.profile.slot (.codec codec) = .ok key ∧
          after = container.assign key (some [.octets data]) ∧ ¬ [13, 10] <:+: data := by
  obtain ⟨isHeaders, keyed⟩ :=
    ((Session.ofHeaders_start register).run steps).container? found
  refine ⟨?_, fun _ _ _ _ set => setValue_free set⟩
  intro fits
  obtain ⟨names, data, holds, distinct, isWire, free⟩ := fits.holdsOctets keyed
  have notPlain : container.profile ≠ .plain := by simp [isHeaders]
  have written := holds.write notPlain fun name member => (isWire name member).ascii
  have stored := holds.fieldsOf_eq distinct
  refine ⟨sortedPairs names data, holds.listed notPlain, ?_, ?_, sortedPairs_pairwise names data,
    stored, ?_⟩
  · rw [written]
  · rw [written]
    apply fields?_wireLines
    intro pair member
    obtain ⟨inNames, inData⟩ := mem_sortedPairs member
    exact ⟨isWire pair.1 inNames, free pair.1 pair.2 inData⟩
  · -- The pairs in their new order leave the lists of each name as they were.
    have refines := fits.holdsBytes.refines fits.filled isHeaders keyed
    have copied := (refines_new (.headers typeName attributes)).addFields
      (sortedPairs names data) fun pair member =>
        FitsWire.names_of_isWireName (isWire pair.1 (mem_sortedPairs member).1)
    simp only [List.nil_append, ← stored, ← isHeaders] at copied
    rw [← isHeaders] at refines
    rw [perform_equals, equal_of_refines copied refines fun name field member =>
      (fits.octets (.text name) field member).imp fun _ => And.left]

theorem fields?_write_of_run_age : ∃ container : Container,
    ((Session.start .common "h").run
      [("h", .operate (.addField (.text "X-Mark") (.octets [13, 58, 32]))),
        ("h", .operate (.setValue (.codec .age) (.integer 5)))]).container? "h" = some container ∧
    container.FitsWire ∧ ∃ pairs, Octets.fields? (container.write .unlimited).2.contents = some pairs ∧
      (pairs.filter (·.1 = "age")).map (fun pair => Value.octets pair.2) = [.octets [53]] := by
  let container : Container :=
    ⟨.common, ⟨[(.text "x-mark", [.octets [13, 58, 32]]), (.text "age", [.octets [53]])]⟩, []⟩
  have fits : container.FitsWire := by
    refine ⟨?_, ?_, ?_⟩ <;>
      simp only [container, List.mem_cons, List.not_mem_nil, or_false, forall_eq_or_imp, forall_eq]
    · exact ⟨⟨"x-mark", rfl, by decide⟩, ⟨"age", rfl, by decide⟩⟩
    · exact ⟨List.cons_ne_nil _ _, List.cons_ne_nil _ _⟩
    · exact ⟨⟨_, rfl, by decide⟩, ⟨_, rfl, by decide⟩⟩
  have found : ((Session.start .common "h").run
      [("h", .operate (.addField (.text "X-Mark") (.octets [13, 58, 32]))),
        ("h", .operate (.setValue (.codec .age) (.integer 5)))]).container? "h" = some container := rfl
  obtain ⟨pairs, -, -, read, -, stored, -⟩ :=
    (fields?_write_of_run "Headers" Profile.commonAttributes "h" _ found).1 fits
  exact ⟨container, found, fits, pairs, read, (stored "age").symm⟩

end Container

end TypedHeaders
