import TypedHeaders.Container.Wire
import TypedHeaders.Proofs.Container.Lists
import TypedHeaders.Proofs.Container.NameOrder
import TypedHeaders.Proofs.Sink

/-! # What is listed and written

A container whose names are text and whose fields are bytes lists them as pairs of a name and data,
sorted by name, and writes by giving the sink one line for each of these pairs in the same order.
The pairs are all that the container holds, so how many lines a sink has taken tells how far it
came.
-/

namespace TypedHeaders

/-! ## The order of names -/

/-- Lists of units are in the order of what the units stand for. -/
theorem lexicographic_map_eq_gt_iff {α : Type} [LT α] {code : α → Nat}
    (injective : Function.Injective code) (less : ∀ x y, x < y ↔ code x < code y) (xs ys : List α) :
    lexicographic (xs.map code) (ys.map code) = .gt ↔ ys < xs := by
  induction xs generalizing ys with
  | nil => cases ys <;> simp [lexicographic]
  | cons x xs ih =>
    cases ys with
    | nil => simp [lexicographic]
    | cons y ys =>
      rw [List.cons_lt_cons_iff, List.map_cons, List.map_cons, lexicographic, less]
      split
      · rename_i same
        simp [injective same, ih]
      · rename_i apart
        have ne : y ≠ x := fun eq => apart (eq ▸ rfl)
        split
        · simp [ne]
          omega
        · simp [ne]
          omega

namespace Container

private theorem nameLe_text (a b : String) : nameLe (.text a) (.text b) = decide (a ≤ b) := by
  have order := lexicographic_map_eq_gt_iff (fun _ _ => Char.toNat_inj.mp) (fun _ _ => .rfl)
    a.toList b.toList
  rw [Bool.eq_iff_iff, decide_eq_true_eq, ← String.not_lt, String.lt_iff, ← order]
  simp [nameLe, Value.units?]

def sortedNames (names : List String) : List String := names.mergeSort fun a b => a ≤ b

theorem sortedNames_perm (names : List String) : (sortedNames names).Perm names :=
  List.mergeSort_perm names _

theorem sortedNames_pairwise (names : List String) :
    (sortedNames names).Pairwise (· ≤ ·) := by
  have trans (a b c : String) (first : decide (a ≤ b)) (second : decide (b ≤ c)) :
      decide (a ≤ c) := by
    rw [decide_eq_true_eq] at first second ⊢
    exact String.le_trans first second
  have total (a b : String) : decide (a ≤ b) || decide (b ≤ a) := by
    simpa using String.le_total a b
  exact (List.pairwise_mergeSort trans total names).imp of_decide_eq_true

/-- Text names are sorted without an error into their order by code points. -/
theorem sortNames_text (names : List String) :
    sortNames (names.map .text) = .ok ((sortedNames names).map .text) := by
  have order : (sortedNames names).map Value.text = (names.map .text).mergeSort nameLe :=
    List.map_mergeSort fun a _ b _ => (nameLe_text a b).symm
  have alike : AreAlike (names.map .text) :=
    areAlike_of_forall "str" (List.forall_mem_map.mpr fun _ _ => rfl)
  rw [order, sortNames_of_alike alike]

theorem sortNames_of_pairwise {names : List String} (ordered : names.Pairwise (· ≤ ·)) :
    sortNames (names.map .text) = .ok (names.map .text) := by
  have sorted : sortedNames names = names :=
    List.mergeSort_of_pairwise (ordered.imp fun le => decide_eq_true le)
  rw [sortNames_text, sorted]

/-! ## Writing as a series of pieces -/

/-- The action gives these pieces to the sink, each with the name of its header. -/
def Offers (action : Writing Unit) (pieces : List (String × Octets)) : Prop :=
  ∀ sink, action sink = sink.offer pieces

namespace Offers

theorem pure : Offers (pure ()) [] := fun _ => rfl

/-- Actions one after the other offer their pieces one after the other. -/
theorem bind {action next : Writing Unit} {pieces others : List (String × Octets)}
    (first : Offers action pieces) (second : Offers next others) :
    Offers (action >>= fun _ => next) (pieces ++ others) := by
  intro sink
  change ExceptT.bindCont (fun _ => next) (action sink).1 (action sink).2 = _
  rw [first sink, Sink.offer_append]
  rcases sink.offer pieces with ⟨error | _, sink⟩
  · rfl
  · exact second sink

private theorem forM_map {α β : Type} {step : β → Writing PUnit} {onItem : α → β}
    {pieces : α → List (String × Octets)} {items : List α}
    (offers : ∀ item ∈ items, Offers (step (onItem item)) (pieces item)) :
    Offers ((items.map onItem).forM step) (items.flatMap pieces) := by
  induction items with
  | nil => exact pure
  | cons item items ih =>
    have rest := ih fun item member => offers item (List.mem_cons_of_mem _ member)
    exact (offers item (List.mem_cons_self ..)).bind rest

end Offers

/-- The line of a field with its name as the label. -/
def wireLine (pair : String × Octets) : Octets :=
  .ofAscii (Name.display pair.1.toList) ++ .ofPhrase ": " ++ pair.2 ++ [13, 10]

/-- The line of a field with the name that a failure is reported under. -/
def wirePiece (pair : String × Octets) : String × Octets := (pair.1, wireLine pair)

private theorem get_bind_apply {α : Type} (next : Sink → Writing α) (sink : Sink) :
    (get >>= next : Writing α) sink = next sink sink := rfl

private theorem offers_line (name : String) (label data : Octets) :
    Offers (writeLine name label (.octets data))
      [(name, label ++ .ofPhrase ": " ++ data ++ [13, 10])] := by
  intro sink
  simp only [writeLine, line, get_bind_apply, Sink.offer]
  cases sink.write (label ++ .ofPhrase ": " ++ data ++ [13, 10]) <;> rfl

private theorem offers_name {name : String} (ascii : Text.IsAscii (Name.display name.toList))
    (fields : List Octets) : Offers (writeName (.text name) (fields.map .octets))
      (fields.map fun data => wirePiece (name, data)) := by
  have lines : Offers
      ((fields.map Value.octets).forM (writeLine name (.ofAscii (Name.display name.toList))))
      (fields.flatMap fun data => [wirePiece (name, data)]) :=
    .forM_map fun data _ => offers_line name _ data
  rw [← List.map_eq_flatMap] at lines
  unfold writeName
  rw [Name.label_of_isAscii ascii]
  exact lines

/-! ## Containers of bytes under text -/

/-- The container holds byte strings under names that are text, in this order. -/
structure HoldsOctets (container : Container) (names : List String)
    (data : String → List Octets) : Prop where
  keys : container.fields.keys = names.map .text
  fields : ∀ name, container.fieldsOf (.text name) = (data name).map .octets

def pairsUnder (names : List String) (data : String → List Octets) : List (String × Octets) :=
  names.flatMap fun name => (data name).map (name, ·)

theorem mem_pairsUnder {names : List String} {data : String → List Octets}
    {pair : String × Octets} (member : pair ∈ pairsUnder names data) :
    pair.1 ∈ names ∧ pair.2 ∈ data pair.1 := by
  obtain ⟨name, named, inName⟩ := List.mem_flatMap.mp member
  obtain ⟨piece, held, rfl⟩ := List.mem_map.mp inName
  exact ⟨named, held⟩

def sortedPairs (names : List String) (data : String → List Octets) : List (String × Octets) :=
  (sortedNames names).flatMap fun name => (data name).map (name, ·)

theorem mem_sortedPairs {names : List String} {data : String → List Octets}
    {pair : String × Octets} (member : pair ∈ sortedPairs names data) :
    pair.1 ∈ names ∧ pair.2 ∈ data pair.1 :=
  (mem_pairsUnder member).imp_left (sortedNames_perm names).mem_iff.mp

theorem sortedPairs_pairwise (names : List String) (data : String → List Octets) :
    (sortedPairs names data).Pairwise fun a b => a.1 ≤ b.1 := by
  rw [sortedPairs, List.pairwise_flatMap]
  refine ⟨fun name _ => List.pairwise_map.mpr ?_, (sortedNames_pairwise names).imp ?_⟩
  · exact List.pairwise_of_forall fun _ _ => String.le_refl name
  · intro a b le x inA y inB
    obtain ⟨_, -, rfl⟩ := List.mem_map.mp inA
    obtain ⟨_, -, rfl⟩ := List.mem_map.mp inB
    exact le

/-- Where all keys are listed with their values, those of one key are its values in their order, if
no other key passes for it. -/
theorem filter_pairs {κ ν : Type} {keys : List κ} (distinct : keys.Nodup) {key : κ}
    (passes : κ → Bool) (own : passes key = true)
    (only : ∀ other ∈ keys, passes other = true → other = key) {values : κ → List ν}
    (held : values key ≠ [] → key ∈ keys) :
    ((keys.flatMap fun key => (values key).map (key, ·)).filter fun pair => passes pair.1).map
      Prod.snd = values key := by
  have others {part : List κ} (within : ∀ other ∈ part, other ∈ keys) (absent : key ∉ part) :
      (part.flatMap fun key => (values key).map (key, ·)).filter (fun pair => passes pair.1) =
        [] := by
    rw [List.filter_eq_nil_iff]
    intro pair member
    obtain ⟨other, inPart, inValues⟩ := List.mem_flatMap.mp member
    obtain ⟨value, -, rfl⟩ := List.mem_map.mp inValues
    exact fun same => absent (only other (within other inPart) same ▸ inPart)
  by_cases member : key ∈ keys
  · obtain ⟨before, after, rfl⟩ := List.append_of_mem member
    obtain ⟨-, distinct', apart⟩ := List.nodup_append.mp distinct
    have notBefore : key ∉ before := fun here => apart key here key (List.mem_cons_self ..) rfl
    have notAfter : key ∉ after := (List.nodup_cons.mp distinct').1
    have ofKey : ((values key).map (key, ·)).filter (fun pair => passes pair.1) =
        (values key).map (key, ·) := by
      rw [List.filter_eq_self, List.forall_mem_map]
      exact fun _ _ => own
    rw [List.flatMap_append, List.flatMap_cons, List.filter_append, List.filter_append, ofKey,
      others (by simp +contextual) notBefore, others (by simp +contextual) notAfter]
    simp [Function.comp_def]
  · rw [others (fun _ here => here) member]
    exact (Decidable.not_not.mp fun some => member (held some)).symm

/-- Of one name all fields are listed, in their order. -/
theorem filter_sortedPairs {names : List String} (distinct : names.Nodup)
    {data : String → List Octets} {name : String} (held : data name ≠ [] → name ∈ names) :
    ((sortedPairs names data).filter (·.1 = name)).map Prod.snd = data name := by
  have sorted := (sortedNames_perm names).nodup_iff.mpr distinct
  exact filter_pairs sorted (· = name) (by simp) (by simp) fun some =>
    (sortedNames_perm names).mem_iff.mpr (held some)

namespace HoldsOctets

variable {container : Container} {names : List String} {data : String → List Octets}

/-- A name that has a field is there. -/
theorem mem_names (holds : HoldsOctets container names data) {name : String}
    (some : data name ≠ []) : name ∈ names := by
  apply Decidable.not_not.mp
  intro absent
  have none : container.fields.find? (.text name) = none := by
    rw [MultiMap.find?_eq_none_iff, holds.keys]
    intro key member
    obtain ⟨other, named, rfl⟩ := List.mem_map.mp member
    rw [Value.text_beq, beq_eq_false_iff_ne]
    exact fun same => absent (same ▸ named)
  have empty := holds.fields name
  rw [fieldsOf, none] at empty
  exact some (List.map_eq_nil_iff.mp empty.symm)

/-- Of each name the fields are listed in their order. -/
theorem fieldsOf_eq (holds : HoldsOctets container names data) (distinct : names.Nodup)
    (name : String) : container.fieldsOf (.text name) =
      ((sortedPairs names data).filter (·.1 = name)).map fun pair => .octets pair.2 := by
  rw [holds.fields, ← filter_sortedPairs distinct holds.mem_names, List.map_map]
  rfl

/-- A container of byte fields under text names lists the sorted pairs. -/
theorem listed (holds : HoldsOctets container names data) (isHeaders : container.profile ≠ .plain) :
    container.listed =
      .ok ((sortedPairs names data).map fun pair => (.text pair.1, .octets pair.2)) := by
  have sorted : container.listedNames = .ok ((sortedNames names).map .text) := by
    rw [listedNames]
    split
    · exact (isHeaders (by assumption)).elim
    · rw [holds.keys, sortNames_text]
  rw [Container.listed, sorted, Except.map, sortedPairs, List.flatMap_map, List.map_flatMap]
  congr 2
  funext name
  rw [holds.fields, List.map_map, List.map_map]
  rfl

/-- Writing names that have labels gives the sink one line for each of their fields. -/
theorem offers_names (holds : HoldsOctets container names data) {part : List String}
    (ascii : ∀ name ∈ part, Text.IsAscii (Name.display name.toList)) :
    Offers ((part.map Value.text).forM fun name => writeName name (container.fieldsOf name))
      ((pairsUnder part data).map wirePiece) := by
  rw [pairsUnder, List.map_flatMap]
  apply Offers.forM_map
  intro name member
  rw [holds.fields, List.map_map]
  exact offers_name (ascii name member) (data name)

/-- Where all names have labels, writing gives the sink one line for each listed pair, in the order
in which they are listed. -/
theorem write_eq_offer (holds : HoldsOctets container names data)
    (isHeaders : container.profile ≠ .plain)
    (ascii : ∀ name ∈ names, Text.IsAscii (Name.display name.toList)) (sink : Sink) :
    container.write sink = sink.offer ((sortedPairs names data).map wirePiece) := by
  have lines : Offers container.writing ((sortedPairs names data).map wirePiece) := by
    unfold writing
    rw [holds.keys, sortNames_text]
    exact holds.offers_names fun name member =>
      ascii name ((sortedNames_perm names).mem_iff.mp member)
  rw [Container.write]
  split
  · exact (isHeaders (by assumption)).elim
  · exact lines sink

/-- Under ASCII names an unlimited sink receives one line for each of the sorted pairs. -/
theorem write (holds : HoldsOctets container names data) (isHeaders : container.profile ≠ .plain)
    (ascii : ∀ name ∈ names, Text.IsAscii name.toList) :
    container.write .unlimited =
      (.ok (), { Sink.unlimited with written := (sortedPairs names data).map wireLine }) := by
  have labels : ∀ name ∈ names, Text.IsAscii (Name.display name.toList) := fun name member =>
    Name.isAscii_display (ascii name member)
  rw [holds.write_eq_offer isHeaders labels, Sink.offer_of_endless rfl, List.map_map]
  rfl

/-- The entries of a container are its names with their fields, in the order of the names. -/
theorem entries (holds : HoldsOctets container names data) (distinct : container.fields.Distinct) :
    container.fields.entries = names.map fun name => (.text name, (data name).map .octets) := by
  have same : ∀ key ∈ container.fields.keys, (key == key) = true := by
    simp [holds.keys]
  rw [distinct.entries_eq same, holds.keys, List.map_map]
  exact List.map_congr_left fun name _ => congrArg _ (holds.fields name)

/-- All fields of a container are listed, each as often as it is there. -/
theorem length_sortedPairs (holds : HoldsOctets container names data)
    (distinct : container.fields.Distinct) :
    (sortedPairs names data).length = container.fields.pairs.length := by
  rw [sortedPairs, ((sortedNames_perm names).flatMap_right _).length_eq, MultiMap.pairs,
    holds.entries distinct]
  simp only [List.length_flatMap, List.length_map, List.map_map, Function.comp_def]

end HoldsOctets

theorem exists_entry_of_mem_fieldsOf {container : Container} {key field : Value}
    (held : field ∈ container.fieldsOf key) :
    ∃ entry ∈ container.fields.entries, field ∈ entry.2 := by
  rw [fieldsOf] at held
  cases found : container.fields.find? key with
  | none => simp [found] at held
  | some fields =>
    obtain ⟨entry, member, -, rfl⟩ := MultiMap.exists_mem_of_find? found
    rw [found, Option.getD_some] at held
    exact ⟨entry, member, held⟩

/-- The names of all fields are text, and all fields are bytes. -/
structure HoldsText (container : Container) : Prop where
  names : ∀ entry ∈ container.fields.entries, ∃ name : String, entry.1 = .text name
  fields : ∀ entry ∈ container.fields.entries, ∀ field ∈ entry.2, ∃ data, field = .octets data

theorem HoldsText.octets {container : Container} (holds : container.HoldsText) (name : Value) :
    ∀ field ∈ container.fieldsOf name, ∃ data, field = .octets data := by
  intro field held
  obtain ⟨entry, member, held⟩ := exists_entry_of_mem_fieldsOf held
  exact holds.fields entry member field held

/-- A container of byte fields under text names is described by its names and their bytes. -/
theorem HoldsText.holdsOctets {container : Container} (holds : container.HoldsText)
    (distinct : container.fields.Distinct) :
    ∃ names data, HoldsOctets container names data ∧ names.Nodup := by
  have texts : ∀ key ∈ container.fields.keys, ∃ name : String, key = .text name ∧ True :=
    List.forall_mem_map.mpr fun entry member =>
      (holds.names entry member).imp fun _ eq => ⟨eq, trivial⟩
  obtain ⟨names, keys, -⟩ := exists_map_eq_of_forall_mem texts
  obtain ⟨data, held⟩ := Classical.axiomOfChoice fun name : String =>
    exists_map_eq_of_forall_mem (p := fun _ => True)
      fun field inName => (holds.octets (.text name) field inName).imp fun _ eq => ⟨eq, trivial⟩
  exact ⟨names, data, ⟨keys, fun name => (held name).1⟩, nodup_of_keys distinct keys⟩

/-- The names of all fields are ASCII text, and all fields are bytes. -/
structure HoldsBytes (container : Container) : Prop where
  names : ∀ entry ∈ container.fields.entries, ∃ name : String,
    entry.1 = .text name ∧ Text.IsAscii name.toList
  fields : ∀ entry ∈ container.fields.entries, ∀ field ∈ entry.2, ∃ data, field = .octets data

theorem HoldsBytes.holdsText {container : Container} (holds : container.HoldsBytes) :
    container.HoldsText where
  names entry member := (holds.names entry member).imp fun _ => And.left
  fields := holds.fields

theorem HoldsBytes.octets {container : Container} (holds : container.HoldsBytes) (name : Value) :
    ∀ field ∈ container.fieldsOf name, ∃ data, field = .octets data :=
  holds.holdsText.octets name

theorem HoldsBytes.holdsOctets {container : Container} (holds : container.HoldsBytes)
    (distinct : container.fields.Distinct) :
    ∃ names data, HoldsOctets container names data ∧ names.Nodup ∧
      ∀ name ∈ names, Text.IsAscii name.toList := by
  obtain ⟨names, data, octets, nodup⟩ := holds.holdsText.holdsOctets distinct
  refine ⟨names, data, octets, nodup, fun name member => ?_⟩
  have key : Value.text name ∈ container.fields.keys := by
    rw [octets.keys]
    exact List.mem_map_of_mem member
  obtain ⟨entry, held, named⟩ := List.mem_map.mp key
  obtain ⟨other, same, ascii⟩ := holds.names entry held
  cases named.symm.trans same
  exact ascii

end Container

end TypedHeaders
