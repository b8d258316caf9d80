import Mathlib.Data.List.Lex
import Mathlib.Data.List.Perm.Subperm
import TypedHeaders.Proofs.Container.Copies
import TypedHeaders.Proofs.Value.Equality

/-! # Equal headers list alike

Equal headers hold the same entries, though the names may have come in another order. Where all
names are text, or all are bytes, they stand in order in one way only, and so equal headers list,
write and print their fields alike. Between text and bytes there is no order: headers with names of
both kinds are neither listed nor written nor printed, and which kind is reported first depends on
which came first.

Every field is listed with its name. So the fields of each name can be read off the list, and
headers of which each name has a field are equal if their lists are.
-/

namespace TypedHeaders.Container

/-! ## Names in order -/

/-- What names are ordered by: the code points of a text, or the numbers of some bytes. -/
def nameUnits (name : Value) : List Nat := (name.units?.map Prod.snd).getD []

private theorem nameLe_of_isName {a b : Value} (isName : a.IsName) (isName' : b.IsName) :
    nameLe a b = decide (nameUnits a ≤ nameUnits b) := by
  have order := lexicographic_map_eq_gt_iff Function.injective_id (fun _ _ => .rfl)
    (nameUnits a) (nameUnits b)
  rw [List.map_id, List.map_id] at order
  have compared : nameLe a b = (lexicographic (nameUnits a) (nameUnits b) != .gt) := by
    rcases isName with ⟨s, rfl⟩ | ⟨x, rfl⟩ <;> rcases isName' with ⟨t, rfl⟩ | ⟨y, rfl⟩ <;> rfl
  rw [compared, Bool.eq_iff_iff, decide_eq_true_eq, ← not_lt, ← order, bne_iff_ne]

/-- Names of one kind are told apart by what they are ordered by. -/
theorem eq_of_nameUnits_eq {a b : Value} (isName : a.IsName) (isName' : b.IsName)
    (alike : a.typeName = b.typeName) (same : nameUnits a = nameUnits b) : a = b := by
  rcases isName with ⟨s, rfl⟩ | ⟨x, rfl⟩ <;> rcases isName' with ⟨t, rfl⟩ | ⟨y, rfl⟩
  · have chars : s.toList = t.toList := (List.map_inj_right fun _ _ => Char.toNat_inj.mp).mp same
    rw [String.toList_inj.mp chars]
  · simp [Value.typeName] at alike
  · simp [Value.typeName] at alike
  · have bytes : x = y := (List.map_inj_right fun _ _ => UInt8.toNat_inj.mp).mp same
    rw [bytes]

private theorem mergeSort_nameLe {names : List Value} (named : ∀ name ∈ names, name.IsName) :
    names.mergeSort nameLe = names.mergeSort fun a b => nameUnits a ≤ nameUnits b := by
  -- Values without units are all in order with each other, so only on names is this an order.
  have order : ∀ a ∈ names, ∀ b ∈ names,
      nameLe a b = decide (nameUnits (id a) ≤ nameUnits (id b)) :=
    fun a member b member' => nameLe_of_isName (named a member) (named b member')
  simpa using List.map_mergeSort (s := fun a b => nameUnits a ≤ nameUnits b) order

private theorem pairwise_mergeSort_nameLe {names : List Value}
    (named : ∀ name ∈ names, name.IsName) :
    (names.mergeSort nameLe).Pairwise fun a b => nameUnits a ≤ nameUnits b := by
  have trans (a b c : Value) (first : decide (nameUnits a ≤ nameUnits b))
      (second : decide (nameUnits b ≤ nameUnits c)) : decide (nameUnits a ≤ nameUnits c) := by
    rw [decide_eq_true_eq] at first second ⊢
    exact le_trans first second
  have total (a b : Value) :
      decide (nameUnits a ≤ nameUnits b) || decide (nameUnits b ≤ nameUnits a) := by
    simpa using le_total (nameUnits a) (nameUnits b)
  rw [mergeSort_nameLe named]
  exact (List.pairwise_mergeSort trans total names).imp of_decide_eq_true

/-- Names of one kind stand in order in one way only. -/
theorem mergeSort_eq_of_perm {names names' : List Value} (named : ∀ name ∈ names, name.IsName)
    (alike : AreAlike names) (perm : names.Perm names') :
    names.mergeSort nameLe = names'.mergeSort nameLe := by
  have named' : ∀ name ∈ names', name.IsName := fun name member =>
    named name (perm.mem_iff.mpr member)
  refine List.Perm.eq_of_pairwise ?_ (pairwise_mergeSort_nameLe named)
    (pairwise_mergeSort_nameLe named')
    ((List.mergeSort_perm ..).trans (perm.trans (List.mergeSort_perm ..).symm))
  -- Two names that are in order both ways have the same units, and of one kind they are one name.
  intro a b member member' le ge
  rw [List.mem_mergeSort] at member member'
  rw [← perm.mem_iff] at member'
  exact eq_of_nameUnits_eq (named a member) (named b member') (alike a member b member')
    (le_antisymm le ge)

/-! ## Equal fields -/

def AreOctets (fields : Fields) : Prop :=
  ∀ entry ∈ fields.entries, ∀ field ∈ entry.2, ∃ data, field = .octets data

/-- Fields of bytes are equal if they differ in nothing but the order of their names. -/
theorem KeyedAsHeaders.equal_iff_perm {fields fields' : Fields} (keyed : KeyedAsHeaders fields)
    (keyed' : KeyedAsHeaders fields') (octets : AreOctets fields) (octets' : AreOctets fields') :
    fields.equal fields' = true ↔ fields.entries.Perm fields'.entries := by
  have sharp {values values' : List Value} {key key' : Value}
      (member : (key, values) ∈ fields.entries) (member' : (key', values') ∈ fields'.entries) :
      (values == values') = true ↔ values = values' :=
    Value.beq_iff_of_forall (fun _ _ => Value.beq_iff_of_isName)
      (fun field held => .inr (octets _ member field held))
      (fun field held => .inr (octets' _ member' field held))
  constructor
  · -- Each entry is among the others, none is there twice, and both maps have equally many.
    intro equal
    obtain ⟨sizes, each⟩ := (Bool.and_eq_true ..).mp equal
    rw [List.all_eq_true] at each
    have subset : fields.entries ⊆ fields'.entries := by
      rintro ⟨key, values⟩ member
      have isName : key.IsName := keyed.isName (List.mem_map_of_mem member)
      have here := each _ member
      cases found : fields'.find? key with
      | none => simp [found] at here
      | some values' =>
        simp only [found] at here
        rw [← keyed'.mem_entries_iff isName] at found
        rwa [(sharp member found).mp here]
    have subperm := List.subperm_of_subset keyed.nodup_entries subset
    exact subperm.perm_of_length_le (beq_iff_eq.mp sizes).ge
  · intro perm
    refine MultiMap.equal_of_perm perm keyed'.distinct fun entry member => ?_
    have isName : entry.1.IsName := keyed.isName (List.mem_map_of_mem member)
    exact ⟨isName.beq_self, (sharp member (perm.mem_iff.mp member)).mpr rfl⟩

/-! ## What is listed, written and printed -/

def fieldsUnder (container : Container) (names : List Value) : List (Value × Value) :=
  names.flatMap fun name => (container.fieldsOf name).map (name, ·)

def printedAs (typeName : String) (pairs : List (Value × Value)) : String :=
  "<" ++ typeName ++ "(" ++ framed (Layout.layout (.list (pairs.map pairValue))) ++ ")>"

def writeNames (container : Container) (names : List Value) : Writing Unit :=
  names.forM fun name => writeName name (container.fieldsOf name)

section Headers

variable {container : Container} {typeName : String} {attributes : List (String × Option Codec)}

/-- Headers list their pairs in the order of the sorted names. -/
theorem perform_allPairs_of_headers (isHeaders : container.profile = .headers typeName attributes) :
    (perform .allPairs container).1 = (sortNames container.fields.keys).map fun names =>
      .list ((container.fieldsUnder names).map pairValue) := by
  have listed : container.listed = (sortNames container.fields.keys).map container.fieldsUnder := by
    rw [Container.listed, listedNames, isHeaders]
    rfl
  rw [perform, Operation.action, bind_apply_of_ok (current_apply container), bind_apply,
    compute_apply, listed]
  cases sortNames container.fields.keys <;> rfl

private theorem perform_printed_of_headers
    (isHeaders : container.profile = .headers typeName attributes) :
    (perform .printed container).1 = (sortNames container.fields.keys >>= fun names =>
      (Value.list ((container.fieldsUnder names).map pairValue)).printing
        (.ok (printedAs typeName (container.fieldsUnder names)))).map .text := by
  have printed : container.printed = (sortNames container.fields.keys >>= fun names =>
      (Value.list ((container.fieldsUnder names).map pairValue)).printing
        (.ok (printedAs typeName (container.fieldsUnder names)))) := by
    rw [Container.printed, Container.listed, listedNames, isHeaders]
    cases sortNames container.fields.keys <;> rfl
  rw [perform, Operation.action, bind_apply_of_ok (current_apply container), map_apply,
    compute_apply, printed]

/-- The printed form shows the list of pairs when each of them can be printed. -/
theorem perform_printed_of_sorted (isHeaders : container.profile = .headers typeName attributes)
    {names : List Value} (sorted : sortNames container.fields.keys = .ok names)
    (shows : (Value.list ((container.fieldsUnder names).map pairValue)).isPrintable = true) :
    (perform .printed container).1 =
      .ok (.text (printedAs typeName (container.fieldsUnder names))) := by
  rw [perform_printed_of_headers isHeaders, sorted]
  change Except.map _ (Value.printing _ _) = _
  rw [Value.printing, if_pos shows, Except.map]

/-- The names are sorted before the sink is offered anything. -/
theorem write_of_headers (isHeaders : container.profile = .headers typeName attributes)
    (sink : Sink) : container.write sink =
      match sortNames container.fields.keys with
      | .ok names => container.writeNames names sink
      | .error error => (.error error, sink) := by
  rw [write, isHeaders]
  change (liftExcept (sortNames container.fields.keys) >>= container.writeNames) sink = _
  cases sortNames container.fields.keys <;> rfl

end Headers

/-- Two containers list, write and print the same, and do not fail to list and print it. -/
structure ListsAlike (a b : Container) : Prop where
  listed : ∃ list, (perform .allPairs a).1 = .ok list ∧ (perform .allPairs b).1 = .ok list
  printed : ∃ text, (perform .printed a).1 = .ok text ∧ (perform .printed b).1 = .ok text
  written : ∀ sink, a.write sink = b.write sink

/-- A container fails with an error when it is to be listed, printed or written, and nothing of it
is written. -/
structure IsUnlisted (container : Container) (error : Error) : Prop where
  listed : (perform .allPairs container).1 = .error error
  printed : (perform .printed container).1 = .error error
  written : ∀ sink, container.write sink = (.error error, sink)

/-- A container with names of two kinds, which have no order, fails over them. -/
def LacksOrder (container : Container) : Prop :=
  ∃ name ∈ container.fields.keys, ∃ other ∈ container.fields.keys,
    name.typeName ≠ other.typeName ∧ IsUnlisted container (unordered name other)

/-- When the names cannot be sorted every listing fails with that one error. -/
theorem isUnlisted_of_sortNames {container : Container} {typeName : String}
    {attributes : List (String × Option Codec)}
    (isHeaders : container.profile = .headers typeName attributes) {error : Error}
    (fails : sortNames container.fields.keys = .error error) : IsUnlisted container error := by
  refine ⟨?_, ?_, fun sink => ?_⟩
  · rw [perform_allPairs_of_headers isHeaders, fails, Except.map]
  · rw [perform_printed_of_headers isHeaders, fails]
    rfl
  · rw [write_of_headers isHeaders, fails]

/-- Headers with names of both kinds fail over two of them. -/
theorem lacksOrder_of_not_alike {container : Container} {typeName : String}
    {attributes : List (String × Option Codec)}
    (isHeaders : container.profile = .headers typeName attributes)
    (mixed : ¬ AreAlike container.fields.keys) : LacksOrder container := by
  obtain ⟨name, member, other, member', apart, error⟩ := sortNames_of_not_alike mixed
  exact ⟨name, member, other, member', apart, isUnlisted_of_sortNames isHeaders error⟩

private theorem isName_of_mem_fieldsUnder {a : Container} (keyed : KeyedAsHeaders a.fields)
    (octets : AreOctets a.fields) {names : List Value} (perm : names.Perm a.fields.keys) :
    ∀ pair ∈ a.fieldsUnder names, pair.1.IsName ∧ pair.2.IsName := by
  intro pair member
  obtain ⟨name, held, inName⟩ := List.mem_flatMap.mp member
  obtain ⟨field, inFields, rfl⟩ := List.mem_map.mp inName
  obtain ⟨entry, inEntries, inEntry⟩ := exists_entry_of_mem_fieldsOf inFields
  exact ⟨keyed.isName (perm.mem_iff.mp held), .inr (octets entry inEntries field inEntry)⟩

/-- Names and bytes show no number when they are printed. -/
theorem isPrintable_of_isName {pairs : List (Value × Value)}
    (named : ∀ pair ∈ pairs, pair.1.IsName ∧ pair.2.IsName) :
    (Value.list (pairs.map pairValue)).isPrintable = true := by
  have shows {value : Value} (isName : value.IsName) : value.isPrintable = true := by
    rcases isName with ⟨s, rfl⟩ | ⟨data, rfl⟩ <;> rfl
  rw [Value.isPrintable]
  induction pairs with
  | nil => rfl
  | cons pair pairs ih =>
    obtain ⟨⟨isName, isName'⟩, rest⟩ := List.forall_mem_cons.mp named
    simp only [List.map_cons, Value.arePrintable, pairValue, Value.isPrintable, shows isName,
      shows isName', Bool.and_self, Bool.true_and]
    exact ih rest

section Permuted

variable {a b : Container} {typeName : String} {attributes : List (String × Option Codec)}

private theorem fieldsOf_eq_of_perm (keyed : KeyedAsHeaders a.fields)
    (keyed' : KeyedAsHeaders b.fields)
    (perm : a.fields.entries.Perm b.fields.entries) {name : Value} (isName : name.IsName) :
    a.fieldsOf name = b.fieldsOf name := by
  rw [fieldsOf, fieldsOf, (keyed.perm_iff keyed').mp perm name isName]

private theorem writeNames_congr {names : List Value}
    (same : ∀ name ∈ names, a.fieldsOf name = b.fieldsOf name) :
    a.writeNames names = b.writeNames names := by
  induction names with
  | nil => rfl
  | cons name names ih =>
    obtain ⟨here, rest⟩ := List.forall_mem_cons.mp same
    change (writeName name (a.fieldsOf name) >>= fun _ => a.writeNames names) = _
    rw [here, ih rest]
    rfl

/-- The names of the same fields are in the same order, and so are the fields under them. -/
theorem listsAlike_of_perm (isHeaders : a.profile = .headers typeName attributes)
    (isHeaders' : b.profile = .headers typeName attributes) (keyed : KeyedAsHeaders a.fields)
    (keyed' : KeyedAsHeaders b.fields) (perm : a.fields.entries.Perm b.fields.entries)
    (octets : AreOctets a.fields) (alike : AreAlike a.fields.keys) : ListsAlike a b := by
  have permKeys : a.fields.keys.Perm b.fields.keys := perm.map Prod.fst
  have sorted := sortNames_of_alike alike
  have sorted' : sortNames b.fields.keys = .ok (a.fields.keys.mergeSort nameLe) := by
    rw [sortNames_of_alike (alike.perm permKeys),
      mergeSort_eq_of_perm (fun _ member => keyed.isName member) alike permKeys]
  have fields : ∀ name ∈ a.fields.keys.mergeSort nameLe, a.fieldsOf name = b.fieldsOf name :=
    fun name member => fieldsOf_eq_of_perm keyed keyed' perm
      (keyed.isName (List.mem_mergeSort.mp member))
  have permSorted : (a.fields.keys.mergeSort nameLe).Perm a.fields.keys := List.mergeSort_perm ..
  generalize a.fields.keys.mergeSort nameLe = names at sorted sorted' fields permSorted
  have shows := isPrintable_of_isName (isName_of_mem_fieldsUnder keyed octets permSorted)
  have under : a.fieldsUnder names = b.fieldsUnder names :=
    List.flatMap_congr fun name member => by rw [fields name member]
  refine ⟨⟨.list ((a.fieldsUnder names).map pairValue), ?_, ?_⟩,
    ⟨.text (printedAs typeName (a.fieldsUnder names)), ?_, ?_⟩, fun sink => ?_⟩
  · rw [perform_allPairs_of_headers isHeaders, sorted, Except.map]
  · rw [perform_allPairs_of_headers isHeaders', sorted', Except.map, under]
  · exact perform_printed_of_sorted isHeaders sorted shows
  · rw [perform_printed_of_sorted isHeaders' sorted' (under ▸ shows), under]
  · rw [write_of_headers isHeaders, write_of_headers isHeaders', sorted, sorted']
    exact congrFun (writeNames_congr fields) sink

end Permuted

/-! ## From the list to the fields -/

/-- Of each name all fields are listed, in their order. -/
theorem filter_fieldsUnder {container : Container} (keyed : KeyedAsHeaders container.fields)
    {names : List Value} (perm : names.Perm container.fields.keys) {key : Value}
    (isName : key.IsName) :
    ((container.fieldsUnder names).filter (·.1 == key)).map Prod.snd = container.fieldsOf key := by
  refine filter_pairs (perm.nodup_iff.mpr keyed.nodup_keys) (· == key) isName.beq_self ?_ ?_
  · intro other member same
    exact (Value.beq_iff_of_isName (keyed.isName (perm.mem_iff.mp member)) isName).mp same
  · intro some
    rw [fieldsOf] at some
    cases found : container.fields.find? key with
    | none => simp [found] at some
    | some fields =>
      have member := (keyed.mem_entries_iff isName fields).mpr found
      exact perm.mem_iff.mpr (List.mem_map_of_mem member)

/-- A name with a name or bytes under it, as it is listed. -/
private def IsPair (value : Value) : Prop :=
  ∃ pair : Value × Value, value = pairValue pair ∧ pair.1.IsName ∧ pair.2.IsName

private theorem beq_iff_of_isPair (a b : Value) (isPair : IsPair a) (isPair' : IsPair b) :
    (a == b) = true ↔ a = b := by
  obtain ⟨⟨name, field⟩, rfl, named, held⟩ := isPair
  obtain ⟨⟨name', field'⟩, rfl, named', held'⟩ := isPair'
  have each : ∀ part ∈ [name, field], part.IsName := by simp [named, held]
  have each' : ∀ part ∈ [name', field'], part.IsName := by simp [named', held']
  rw [pairValue, pairValue, Value.tuple_beq, Value.tuple.injEq]
  exact Value.beq_iff_of_forall (fun _ _ => Value.beq_iff_of_isName) each each'

/-- Lists of names with bytes are equal only if they are the same. -/
theorem list_beq_iff {pairs pairs' : List (Value × Value)}
    (named : ∀ pair ∈ pairs, pair.1.IsName ∧ pair.2.IsName)
    (named' : ∀ pair ∈ pairs', pair.1.IsName ∧ pair.2.IsName) :
    (Value.list (pairs.map pairValue) == .list (pairs'.map pairValue)) = true ↔ pairs = pairs' := by
  have injective (pair pair' : Value × Value) (same : pairValue pair = pairValue pair') :
      pair = pair' := by
    simpa [pairValue, Prod.ext_iff] using same
  rw [Value.list_beq, Value.beq_iff_of_forall beq_iff_of_isPair, List.map_inj_right injective]
  · exact List.forall_mem_map.mpr fun pair member => ⟨pair, rfl, named pair member⟩
  · exact List.forall_mem_map.mpr fun pair member => ⟨pair, rfl, named' pair member⟩

section Converse

variable {a b : Container} {typeName : String} {attributes : List (String × Option Codec)}

/-- What headers list is of all their names. -/
theorem exists_names_of_listed (isHeaders : a.profile = .headers typeName attributes) {list : Value}
    (listed : (perform .allPairs a).1 = .ok list) :
    ∃ names : List Value, names.Perm a.fields.keys ∧
      list = .list ((a.fieldsUnder names).map pairValue) := by
  rw [perform_allPairs_of_headers isHeaders] at listed
  by_cases alike : AreAlike a.fields.keys
  · rw [sortNames_of_alike alike] at listed
    cases listed
    exact ⟨_, List.mergeSort_perm .., rfl⟩
  · obtain ⟨name, -, other, -, -, error⟩ := sortNames_of_not_alike alike
    rw [error] at listed
    cases listed

/-- Headers with a field under each name hold the same fields if their lists are equal. -/
theorem perm_of_listed (isHeaders : a.profile = .headers typeName attributes)
    (isHeaders' : b.profile = .headers typeName attributes) (keyed : KeyedAsHeaders a.fields)
    (keyed' : KeyedAsHeaders b.fields) (octets : AreOctets a.fields) (octets' : AreOctets b.fields)
    (filled : Filled a.fields) (filled' : Filled b.fields) {list list' : Value}
    (listed : (perform .allPairs a).1 = .ok list) (listed' : (perform .allPairs b).1 = .ok list')
    (same : (list == list') = true) : a.fields.entries.Perm b.fields.entries := by
  obtain ⟨names, perm, rfl⟩ := exists_names_of_listed isHeaders listed
  obtain ⟨names', perm', rfl⟩ := exists_names_of_listed isHeaders' listed'
  rw [list_beq_iff (isName_of_mem_fieldsUnder keyed octets perm)
    (isName_of_mem_fieldsUnder keyed' octets' perm')] at same
  rw [keyed.perm_iff keyed']
  intro key isName
  rw [filled.find?_eq, filled'.find?_eq, ← filter_fieldsUnder keyed perm isName,
    ← filter_fieldsUnder keyed' perm' isName, same]

end Converse

/-! ## Equal headers of any history -/

/-- Headers of bytes that are equal list, write and print the same, whatever the steps that led to
them, as long as their names are all text or all bytes. Otherwise both fail for want of an order. And
headers of which each name has a field are equal if the same is listed of both. -/
theorem listing_of_run (typeName : String) (attributes : List (String × Option Codec))
    {register register' target target' : String} {steps steps' : List (String × Session.Step)}
    {a b : Container}
    (reached : ((Session.start (.headers typeName attributes) register).run steps).container?
      target = some a)
    (reached' : ((Session.start (.headers typeName attributes) register').run steps').container?
      target' = some b)
    (octets : AreOctets a.fields) (octets' : AreOctets b.fields) :
    (perform (.equals (.container b)) a = (.ok (.boolean true), a) →
        (AreAlike a.fields.keys → ListsAlike a b) ∧
          (¬ AreAlike a.fields.keys → LacksOrder a ∧ LacksOrder b)) ∧
      (Filled a.fields → Filled b.fields → ∀ list list' : Value,
        (perform .allPairs a).1 = .ok list → (perform .allPairs b).1 = .ok list' →
          (list == list') = true →
            perform (.equals (.container b)) a = (.ok (.boolean true), a)) := by
  obtain ⟨isHeaders, keyed⟩ :=
    ((Session.ofHeaders_start register).run steps).container? reached
  obtain ⟨isHeaders', keyed'⟩ :=
    ((Session.ofHeaders_start register').run steps').container? reached'
  have equal_iff := keyed.equal_iff_perm keyed' octets octets'
  constructor
  · intro equal
    rw [perform_equals] at equal
    have perm : a.fields.entries.Perm b.fields.entries := equal_iff.mp (by simpa using equal)
    refine ⟨listsAlike_of_perm isHeaders isHeaders' keyed keyed' perm octets, fun mixed => ?_⟩
    have permKeys : a.fields.keys.Perm b.fields.keys := perm.map Prod.fst
    exact ⟨lacksOrder_of_not_alike isHeaders mixed,
      lacksOrder_of_not_alike isHeaders' fun alike => mixed (alike.perm permKeys.symm)⟩
  · intro filled filled' list list' listed listed' same
    have perm := perm_of_listed isHeaders isHeaders' keyed keyed' octets octets' filled filled'
      listed listed' same
    rw [perform_equals, equal_iff.mpr perm]

theorem listing_of_run_age :
    let steps : List (String × Session.Step) :=
      [("h", .operate (.addField (.text "Via") (.octets [49]))),
        ("h", .operate (.addField (.text "age") (.octets [50])))]
    let steps' : List (String × Session.Step) :=
      [("h", .operate (.addField (.text "AGE") (.octets [50]))), ("h", .copy .deep "g"),
        ("g", .operate (.addField (.text "via") (.octets [49])))]
    let a : Container :=
      ⟨.common, ⟨[(.text "via", [.octets [49]]), (.text "age", [.octets [50]])]⟩, []⟩
    let b : Container :=
      ⟨.common, ⟨[(.text "age", [.octets [50]]), (.text "via", [.octets [49]])]⟩, []⟩
    ((Session.start .common "h").run steps).container? "h" = some a ∧
      ((Session.start .common "h").run steps').container? "g" = some b ∧ ListsAlike a b ∧
      perform (.equals (.container b)) a = (.ok (.boolean true), a) := by
  intro steps steps' a b
  have reached : ((Session.start .common "h").run steps).container? "h" = some a := rfl
  have reached' : ((Session.start .common "h").run steps').container? "g" = some b := rfl
  have octets : AreOctets a.fields := by simp [AreOctets, a]
  have octets' : AreOctets b.fields := by simp [AreOctets, b]
  have alike : AreAlike a.fields.keys := by simp [AreAlike, a, MultiMap.keys, Value.typeName]
  have filled : Filled a.fields := by simp [Filled, a]
  have filled' : Filled b.fields := by simp [Filled, b]
  obtain ⟨forward, back⟩ :=
    listing_of_run "Headers" Profile.commonAttributes reached reached' octets octets'
  have lists : ListsAlike a b :=
    (forward (by simp [perform_equals, a, b, MultiMap.equal, MultiMap.size, MultiMap.find?])).1 alike
  obtain ⟨list, listed, listed'⟩ := lists.listed
  have same : (list == list) = true := by
    obtain ⟨isHeaders, keyed⟩ := ((Session.ofHeaders_start "h").run steps).container? reached
    obtain ⟨names, perm, rfl⟩ := exists_names_of_listed isHeaders listed
    have named := isName_of_mem_fieldsUnder keyed octets perm
    exact (list_beq_iff named named).mpr rfl
  exact ⟨reached, reached', lists, back filled filled' list list listed listed' same⟩

/-- Equal headers with names of both kinds can fail over different kinds, and then they do not fail
alike. -/
theorem listing_of_mixed_names :
    let ofText : String × Session.Step := ("h", .operate (.addField (.text "a") (.octets [49])))
    let ofBytes : String × Session.Step := ("h", .operate (.addField (.octets [98]) (.octets [50])))
    let a : Container :=
      ⟨.common, ⟨[(.text "a", [.octets [49]]), (.octets [98], [.octets [50]])]⟩, []⟩
    let b : Container :=
      ⟨.common, ⟨[(.octets [98], [.octets [50]]), (.text "a", [.octets [49]])]⟩, []⟩
    ((Session.start .common "h").run [ofText, ofBytes]).container? "h" = some a ∧
      ((Session.start .common "h").run [ofBytes, ofText]).container? "h" = some b ∧
      AreOctets a.fields ∧ AreOctets b.fields ∧
      perform (.equals (.container b)) a = (.ok (.boolean true), a) ∧
      IsUnlisted a (.wrongType (.notOrdered "<" "bytes" "str")) ∧
      IsUnlisted b (.wrongType (.notOrdered "<" "str" "bytes")) ∧
      (perform .allPairs a).1 ≠ (perform .allPairs b).1 ∧
      a.write .unlimited ≠ b.write .unlimited := by
  intro ofText ofBytes a b
  -- The second name is compared with the first one before any other comparison is made.
  have unlisted : IsUnlisted a (.wrongType (.notOrdered "<" "bytes" "str")) := by
    have keys : a.fields.keys = [.text "a", .octets [98]] := rfl
    refine isUnlisted_of_sortNames rfl ?_
    rw [keys, sortNames, NameRun.compareAll]
    rfl
  have unlisted' : IsUnlisted b (.wrongType (.notOrdered "<" "str" "bytes")) := by
    have keys : b.fields.keys = [.octets [98], .text "a"] := rfl
    refine isUnlisted_of_sortNames rfl ?_
    rw [keys, sortNames, NameRun.compareAll]
    rfl
  refine ⟨rfl, rfl, ?_, ?_, ?_, unlisted, unlisted', ?_, ?_⟩
  · simp [AreOctets, a]
  · simp [AreOctets, b]
  · simp [perform_equals, a, b, MultiMap.equal, MultiMap.size, MultiMap.find?]
  · rw [unlisted.listed, unlisted'.listed]
    simp
  · rw [unlisted.written, unlisted'.written]
    simp

end TypedHeaders.Container
