import TypedHeaders.Proofs.Container.Listing
import TypedHeaders.Proofs.Container.TypedAccess

/-! # Names that are not ASCII

Headers take any text for a name, but each line begins with the name in ASCII. The label is made
when its lines are due, so the first name that has none ends the writing after the lines of all
names before it. Capitalizing comes before the test for ASCII, so a few names that are not ASCII
have a label all the same: it is that of another name, under which the field is looked for in vain.
-/

namespace TypedHeaders.Container

/-! ## Writing up to a name without a label -/

private theorem Offers.bind_of_error {action next : Writing Unit} {pieces : List (String × Octets)}
    (first : Offers action pieces) {error : Error}
    (fails : ∀ sink, next sink = (.error error, sink)) (sink : Sink) :
    (action >>= fun _ => next) sink =
      ((sink.offer pieces).1.bind fun _ => .error error, (sink.offer pieces).2) := by
  change ExceptT.bindCont (fun _ => next) (action sink).1 (action sink).2 = _
  rw [first sink]
  rcases sink.offer pieces with ⟨fault | _, sink⟩
  · rfl
  · exact fails sink

private theorem writing_bind_of_error {action : Writing Unit} {next : Unit → Writing Unit}
    {sink : Sink} {error : Error} (fails : action sink = (.error error, sink)) :
    (action >>= next) sink = (.error error, sink) := by
  change ExceptT.bindCont next (action sink).1 (action sink).2 = _
  rw [fails]
  rfl

private theorem writeName_of_label_error {name : Value} {error : Error}
    (unlabelled : Name.label name = .error error) (fields : List Value) (sink : Sink) :
    writeName name fields sink = (.error error, sink) := by
  unfold writeName
  rw [unlabelled]
  rfl

private theorem writeNames_append (container : Container) (names names' : List Value) :
    container.writeNames (names ++ names') =
      container.writeNames names >>= fun _ => container.writeNames names' :=
  List.forM_append

section

variable {container : Container} {names : List String} {data : String → List Octets}
  {before rest : List String} {first : String} {typeName : String}
  {attributes : List (String × Option Codec)}

/-- Names are in order, and none is there twice. -/
theorem lt_iff_of_sortedNames (distinct : names.Nodup)
    (sorted : sortedNames names = before ++ first :: rest) :
    (∀ name ∈ before, name < first) ∧ ∀ name ∈ first :: rest, ¬ name < first := by
  have ordered := sortedNames_pairwise names
  have nodup := (sortedNames_perm names).nodup_iff.mpr distinct
  rw [sorted, List.pairwise_append] at ordered
  rw [sorted, List.nodup_append] at nodup
  obtain ⟨-, others, least⟩ := ordered
  constructor
  · intro name member
    have apart := nodup.2.2 name member first (List.mem_cons_self ..)
    have le := least name member first (List.mem_cons_self ..)
    exact String.not_le.mp fun ge => apart (String.le_antisymm le ge)
  · refine List.forall_mem_cons.mpr ⟨String.lt_irrefl first, fun name member => ?_⟩
    exact String.not_lt.mpr ((List.pairwise_cons.mp others).1 name member)

/-- The fields of all names before one of them are those of the smaller names. -/
theorem filter_sortedPairs_lt (distinct : names.Nodup)
    (sorted : sortedNames names = before ++ first :: rest) :
    (sortedPairs names data).filter (·.1 < first) = pairsUnder before data := by
  obtain ⟨smaller, notSmaller⟩ := lt_iff_of_sortedNames distinct sorted
  have kept : (pairsUnder before data).filter (·.1 < first) = pairsUnder before data := by
    rw [List.filter_eq_self]
    exact fun pair member => decide_eq_true (smaller pair.1 (mem_pairsUnder member).1)
  have dropped : (pairsUnder (first :: rest) data).filter (·.1 < first) = [] := by
    rw [List.filter_eq_nil_iff]
    intro pair member
    rw [decide_eq_true_eq]
    exact notSmaller pair.1 (mem_pairsUnder member).1
  have parted : sortedPairs names data =
      pairsUnder before data ++ pairsUnder (first :: rest) data := by
    rw [sortedPairs, sorted, List.flatMap_append]
    rfl
  rw [parted, List.filter_append, kept, dropped, List.append_nil]

/-- The lines of the names before the first one without a label go to the sink, and if the sink
takes them, writing fails over that name. -/
theorem HoldsOctets.write_of_label_error (holds : HoldsOctets container names data)
    (isHeaders : container.profile = .headers typeName attributes)
    (sorted : sortedNames names = before ++ first :: rest)
    (ascii : ∀ name ∈ before, Text.IsAscii (Name.display name.toList)) {error : Error}
    (unlabelled : Name.label (.text first) = .error error) (sink : Sink) :
    container.write sink =
      ((sink.offer ((pairsUnder before data).map wirePiece)).1.bind fun _ => .error error,
        (sink.offer ((pairsUnder before data).map wirePiece)).2) := by
  have stuck (sink : Sink) :
      container.writeNames ((first :: rest).map .text) sink = (.error error, sink) :=
    writing_bind_of_error (writeName_of_label_error unlabelled _ sink)
  rw [write_of_headers isHeaders, holds.keys, sortNames_text, sorted, List.map_append]
  simp only [writeNames_append]
  exact (holds.offers_names ascii).bind_of_error stuck sink

/-- If a name cannot be written in ASCII, then the fields of all names before the first one that
cannot are written as far as the sink takes the lines, and even if it takes them all writing fails.
-/
theorem HoldsOctets.takes_write_of_unwritable (holds : HoldsOctets container names data)
    (isHeaders : container.profile = .headers typeName attributes) (distinct : names.Nodup)
    {name : String} (member : name ∈ names) (unwritable : ¬ Name.IsWritable name.toList) :
    ∃ first start stop c, first ∈ names ∧
      (∀ other ∈ names, other < first → Name.IsWritable other.toList) ∧
      (Name.display first.toList)[start]? = some c ∧ 128 ≤ c.toNat ∧
      ∀ sink : Sink, ∃ run,
        sink.Takes (((sortedPairs names data).filter (·.1 < first)).map wirePiece) run ∧
        container.write sink = (run.1.bind fun _ => .error (.notAscii start stop c), run.2) := by
  have inOrder (name : String) : name ∈ sortedNames names ↔ name ∈ names :=
    (sortedNames_perm names).mem_iff
  have refused : ¬ ∀ name ∈ sortedNames names, Text.IsAscii (Name.display name.toList) :=
    fun all => unwritable ((Name.isAscii_display_iff _).mp (all name ((inOrder name).mpr member)))
  obtain ⟨before, first, rest, sorted, ascii, foreign⟩ := Name.exists_first_refused _ refused
  obtain ⟨start, stop, c, unlabelled, here, far⟩ := Name.label_of_not_isAscii foreign
  obtain ⟨-, notSmaller⟩ := lt_iff_of_sortedNames distinct sorted
  refine ⟨first, start, stop, c, ?_, ?_, here, far, fun sink => ?_⟩
  · rw [← inOrder, sorted]
    simp
  · intro other member' less
    rw [← inOrder, sorted, List.mem_append] at member'
    rcases member' with inBefore | notBefore
    · exact (Name.isAscii_display_iff _).mp (ascii other inBefore)
    · exact (notSmaller other notBefore less).elim
  · rw [filter_sortedPairs_lt distinct sorted,
      holds.write_of_label_error isHeaders sorted ascii unlabelled]
    exact ⟨_, Sink.takes_offer _ sink, rfl⟩

end

/-- Headers with text for names write all their fields, as far as the sink takes the lines, if all
names can be written in ASCII. Otherwise they write the fields of all names before the first one
that cannot, and then fail over it, even when the sink takes everything. -/
theorem takes_write_of_text (typeName : String) (attributes : List (String × Option Codec))
    (register : String) (steps : List (String × Session.Step)) {target : String}
    {container : Container} (found : ((Session.start (.headers typeName attributes) register).run
      steps).container? target = some container) (holds : container.HoldsText) :
    ∃ pairs : List (String × Octets),
      container.listed = .ok (pairs.map fun pair => (.text pair.1, .octets pair.2)) ∧
      (∀ name, container.fieldsOf (.text name) =
        (pairs.filter (·.1 = name)).map fun pair => .octets pair.2) ∧
      ((∀ name, .text name ∈ container.fields.keys → Name.IsWritable name.toList) →
        ∀ sink : Sink, sink.Takes (pairs.map wirePiece) (container.write sink) ∧
          (sink.capacity = none → container.write sink =
            (.ok (), { sink with written := sink.written ++ pairs.map wireLine }))) ∧
      ∀ name, .text name ∈ container.fields.keys → ¬ Name.IsWritable name.toList →
        ∃ first start stop c, .text first ∈ container.fields.keys ∧
          (∀ other, .text other ∈ container.fields.keys → other < first →
            Name.IsWritable other.toList) ∧
          (Name.display first.toList)[start]? = some c ∧ 128 ≤ c.toNat ∧
          ∀ sink : Sink, ∃ run,
            sink.Takes ((pairs.filter (·.1 < first)).map wirePiece) run ∧
            container.write sink =
              (run.1.bind fun _ => .error (.notAscii start stop c), run.2) := by
  obtain ⟨isHeaders, keyed⟩ :=
    ((Session.ofHeaders_start register).run steps).container? found
  have notPlain : container.profile ≠ .plain := by simp [isHeaders]
  obtain ⟨names, data, octets, distinct⟩ := holds.holdsOctets keyed.distinct
  have isKey (name : String) : Value.text name ∈ container.fields.keys ↔ name ∈ names := by
    simp [octets.keys]
  simp only [isKey]
  refine ⟨sortedPairs names data, octets.listed notPlain, octets.fieldsOf_eq distinct,
    fun writable sink => ?_,
    fun name member => octets.takes_write_of_unwritable isHeaders distinct member⟩
  -- With a label for each name all pieces are offered, and the rest is up to the sink.
  rw [octets.write_eq_offer notPlain fun name member =>
    (Name.isAscii_display_iff name.toList).mpr (writable name member)]
  refine ⟨Sink.takes_offer _ sink, fun endless => ?_⟩
  rw [Sink.offer_of_endless endless, List.map_map]
  rfl

/-- The dotless i has a label, and the accented e has none. -/
theorem takes_write_of_text_dotless :
    (∃ container : Container, ((Session.start .common "h").run
        [("h", .operate (.addField (.text "ıd") (.octets [49])))]).container? "h" = some container ∧
      container.HoldsText ∧ ∃ pairs : List (String × Octets),
        container.write .unlimited =
          (.ok (), { Sink.unlimited with written := pairs.map wireLine }) ∧
        (pairs.filter (·.1 = "ıd")).map (fun pair => Value.octets pair.2) = [.octets [49]]) ∧
    ∃ container : Container, ((Session.start .common "h").run
        [("h", .operate (.addField (.text "é") (.octets [49])))]).container? "h" = some container ∧
      container.HoldsText ∧ ∃ error, (container.write .unlimited).1 = .error error := by
  let dotless : Container := ⟨.common, ⟨[(.text "ıd", [.octets [49]])]⟩, []⟩
  let accented : Container := ⟨.common, ⟨[(.text "é", [.octets [49]])]⟩, []⟩
  have holds (name : String) :
      (⟨.common, ⟨[(.text name, [.octets [49]])]⟩, []⟩ : Container).HoldsText := by
    refine ⟨?_, ?_⟩ <;> simp
  have found : ((Session.start .common "h").run
      [("h", .operate (.addField (.text "ıd") (.octets [49])))]).container? "h" =
        some dotless := rfl
  have found' : ((Session.start .common "h").run
      [("h", .operate (.addField (.text "é") (.octets [49])))]).container? "h" =
        some accented := rfl
  constructor
  · obtain ⟨pairs, -, stored, writable, -⟩ :=
      takes_write_of_text "Headers" Profile.commonAttributes "h" _ found (holds "ıd")
    have only : ∀ name, .text name ∈ dotless.fields.keys → Name.IsWritable name.toList := by
      simp only [dotless, MultiMap.keys, List.map_cons, List.map_nil, List.mem_singleton,
        Value.text.injEq, forall_eq]
      decide +kernel
    exact ⟨dotless, found, holds "ıd", pairs, (writable only .unlimited).2 rfl,
      (stored "ıd").symm⟩
  · obtain ⟨pairs, -, -, -, stuck⟩ :=
      takes_write_of_text "Headers" Profile.commonAttributes "h" _ found' (holds "é")
    obtain ⟨first, start, stop, c, -, -, -, -, writes⟩ :=
      stuck "é" (List.mem_singleton.mpr rfl) (by decide +kernel)
    obtain ⟨run, -, write⟩ := writes .unlimited
    refine ⟨accented, found', holds "é", ?_⟩
    rw [write]
    rcases run with ⟨error | _, sink⟩
    · exact ⟨error, rfl⟩
    · exact ⟨_, rfl⟩

/-- The name with an accent fails after the line before it has been written, though the sink takes
everything. -/
theorem write_stops_at_accent : ∃ container : Container, ((Session.start .common "h").run
      [("h", .operate (.addField (.text "a") (.octets [49]))),
        ("h", .operate (.addField (.text "é") (.octets [50])))]).container? "h" = some container ∧
    container.HoldsText ∧ container.write .unlimited =
      (.error (.notAscii 0 1 'É'), { Sink.unlimited with written := [.ofPhrase "A: 1\r\n"] }) := by
  let container : Container :=
    ⟨.common, ⟨[(.text "a", [.octets [49]]), (.text "é", [.octets [50]])]⟩, []⟩
  refine ⟨container, rfl, ⟨by simp [container], by simp [container]⟩, ?_⟩
  have sorted : sortNames container.fields.keys = .ok [.text "a", .text "é"] :=
    sortNames_of_pairwise (show ["a", "é"].Pairwise (· ≤ ·) by decide)
  rw [write_of_headers rfl, sorted]
  rfl

/-! ## Under which name a field goes out -/

/-- However writing ends, the sink has got the lines of the first fields that are listed, and their
names have labels in ASCII. -/
theorem HoldsOctets.written {container : Container} {names : List String}
    {data : String → List Octets} (holds : HoldsOctets container names data)
    {typeName : String} {attributes : List (String × Option Codec)}
    (isHeaders : container.profile = .headers typeName attributes) (sink : Sink) :
    ∃ pairs : List (String × Octets), pairs <+: sortedPairs names data ∧
      (container.write sink).2.written = sink.written ++ pairs.map wireLine ∧
      ∀ pair ∈ pairs, Text.IsAscii (Name.display pair.1.toList) := by
  have ofOffer {pieces : List (String × Octets)} (begins : pieces <+: sortedPairs names data)
      (ascii : ∀ pair ∈ pieces, Text.IsAscii (Name.display pair.1.toList)) :
      ∃ pairs : List (String × Octets), pairs <+: sortedPairs names data ∧
        (sink.offer (pieces.map wirePiece)).2.written = sink.written ++ pairs.map wireLine ∧
        ∀ pair ∈ pairs, Text.IsAscii (Name.display pair.1.toList) := by
    obtain ⟨count, written⟩ := (Sink.takes_offer (pieces.map wirePiece) sink).written
    refine ⟨pieces.take count, (List.take_prefix ..).trans begins, ?_, fun pair member =>
      ascii pair (List.mem_of_mem_take member)⟩
    rw [written, ← List.map_take, List.map_map]
    rfl
  by_cases ascii : ∀ name ∈ sortedNames names, Text.IsAscii (Name.display name.toList)
  · rw [holds.write_eq_offer (by simp [isHeaders]) fun name member =>
      ascii name ((sortedNames_perm names).mem_iff.mpr member)]
    refine ofOffer List.prefix_rfl fun pair member => ascii pair.1 ?_
    exact (sortedNames_perm names).mem_iff.mpr (mem_sortedPairs member).1
  · obtain ⟨before, first, rest, sorted, ascii, foreign⟩ := Name.exists_first_refused _ ascii
    obtain ⟨start, stop, c, unlabelled, -⟩ := Name.label_of_not_isAscii foreign
    rw [holds.write_of_label_error isHeaders sorted ascii unlabelled]
    refine ofOffer ?_ fun pair member => ?_
    · rw [sortedPairs, sorted, List.flatMap_append]
      exact List.prefix_append ..
    · exact ascii pair.1 (mem_pairsUnder member).1

/-- Every line that headers with text for names write is that of a listed field, and its label is
ASCII. In lower case the label is the name of the field exactly if that name is ASCII; then no other
ASCII name has the same label, and the fields of the name are found under the label. A name that is
not ASCII goes out as another name, and under the label are the fields of that name. -/
theorem label_of_line_iff (typeName : String) (attributes : List (String × Option Codec))
    (register : String) (steps : List (String × Session.Step)) {target : String}
    {container : Container} (found : ((Session.start (.headers typeName attributes) register).run
      steps).container? target = some container) (holds : container.HoldsText) (sink : Sink) :
    ∃ listed pairs : List (String × Octets),
      container.listed = .ok (listed.map fun pair => (.text pair.1, .octets pair.2)) ∧
      pairs <+: listed ∧
      (container.write sink).2.written = sink.written ++ pairs.map wireLine ∧
      (∀ pair ∈ pairs, .octets pair.2 ∈ container.fieldsOf (.text pair.1) ∧
        ∃ label : String, Name.wireCase (.text pair.1) = .ok label ∧ Text.IsAscii label.toList ∧
          wireLine pair = .ofAscii label.toList ++ .ofPhrase ": " ++ pair.2 ++ [13, 10] ∧
          perform (.fieldsOrNone (.text label)) container =
            (.ok (.tuple (container.fieldsOf (.text (Name.lowerAscii label)))), container) ∧
          (Name.lowerAscii label = pair.1 ↔ Text.IsAscii pair.1.toList)) ∧
      ∀ pair ∈ pairs, ∀ other ∈ pairs, Text.IsAscii pair.1.toList → Text.IsAscii other.1.toList →
        Name.wireCase (.text pair.1) = Name.wireCase (.text other.1) → pair.1 = other.1 := by
  obtain ⟨isHeaders, keyed⟩ :=
    ((Session.ofHeaders_start register).run steps).container? found
  have notPlain : container.profile ≠ .plain := by simp [isHeaders]
  obtain ⟨names, data, octets, -⟩ := holds.holdsOctets keyed.distinct
  obtain ⟨pairs, begins, written, labelled⟩ := octets.written isHeaders sink
  -- Headers keep their names in lower case, which is why lowering a label gives the name back.
  have small : ∀ pair ∈ pairs, Text.HasNoCapital pair.1.toList := by
    intro pair member
    have key : Value.text pair.1 ∈ container.fields.keys := by
      simpa [octets.keys] using (mem_sortedPairs (begins.subset member)).1
    rcases keyed.keys _ key with ⟨name, same, small⟩ | ⟨bytes, same⟩
    · cases same
      exact small
    · cases same
  refine ⟨sortedPairs names data, pairs, octets.listed notPlain, begins, written, ?_, ?_⟩
  · intro pair member
    let label := String.ofList (Name.display pair.1.toList)
    have chars : label.toList = Name.display pair.1.toList := String.toList_ofList
    have ascii : Text.IsAscii label.toList := chars ▸ labelled pair member
    have slot : container.profile.slot (.text label) = .ok (.text (Name.lowerAscii label)) := by
      rw [isHeaders]
      exact (Profile.Names.header ascii).slot
    refine ⟨?_, label, rfl, ascii, ?_, ?_, fun same => ?_, fun own => ?_⟩
    · rw [octets.fields]
      exact List.mem_map_of_mem (mem_sortedPairs (begins.subset member)).2
    · rw [chars]
      rfl
    · rw [perform, Operation.action, onHeaders_apply notPlain, map_apply, fieldsOrNone_apply slot]
      rfl
    · rw [← same]
      exact Name.isAscii_lowerAscii ascii
    · exact Name.lowerAscii_display own (small pair member)
  · intro pair member other member' own own' same
    have same := congrArg Name.lowerAscii (Except.ok.inj same)
    rwa [Name.lowerAscii_display own (small pair member),
      Name.lowerAscii_display own' (small other member')] at same

/-- The label of a name does not depend on how the name was spelled when the field was added. -/
theorem label_of_line_iff_age : ∃ container : Container, ((Session.start .common "h").run
      [("h", .operate (.addField (.text "aGE") (.octets [53])))]).container? "h" = some container ∧
    container.HoldsText ∧ ∃ label : String,
      (container.write .unlimited).2.written =
        [Octets.ofAscii label.toList ++ .ofPhrase ": " ++ [53] ++ [13, 10]] ∧
      Name.lowerAscii label = "age" ∧
      (perform (.fieldsOrNone (.text label)) container).1 = .ok (.tuple [.octets [53]]) := by
  let container : Container := ⟨.common, ⟨[(.text "age", [.octets [53]])]⟩, []⟩
  have found : ((Session.start .common "h").run
      [("h", .operate (.addField (.text "aGE") (.octets [53])))]).container? "h" =
        some container := rfl
  have holds : container.HoldsText := ⟨by simp [container], by simp [container]⟩
  have sorted : sortNames container.fields.keys = .ok [.text "age"] :=
    sortNames_of_pairwise (List.pairwise_singleton (· ≤ ·) "age")
  obtain ⟨listed, pairs, lists, begins, written, lines, -⟩ :=
    label_of_line_iff "Headers" Profile.commonAttributes "h" _ found holds .unlimited
  have one : (container.write .unlimited).2.written = [.ofPhrase "Age: 5\r\n"] := by
    rw [write_of_headers rfl, sorted]
    rfl
  have lists' : container.listed = .ok [(.text "age", .octets [53])] := by
    rw [Container.listed, listedNames]
    change Except.map _ (sortNames container.fields.keys) = _
    rw [sorted]
    rfl
  obtain ⟨pair, rfl, same⟩ := List.map_eq_singleton_iff.mp (Except.ok.inj (lists.symm.trans lists'))
  obtain ⟨name, data⟩ := pair
  cases same
  -- A line was written, so it is that of the only field that is listed.
  have whole : pairs = [("age", [53])] := by
    cases pairs with
    | nil =>
      rw [written] at one
      cases one
    | cons pair pairs =>
      obtain ⟨rest, joined⟩ := begins
      obtain ⟨rfl, none⟩ := List.cons.inj joined
      rw [(List.append_eq_nil_iff.mp none).1]
  obtain ⟨-, label, -, -, line, shown, own⟩ := lines ("age", [53]) (by simp [whole])
  have own := own.mpr (by decide)
  refine ⟨container, found, holds, label, ?_, own, ?_⟩
  · rw [written, whole, List.map_singleton, line]
    rfl
  · rw [shown, own]
    rfl

/-- The long s goes out as an s. -/
theorem long_s_labelled_s : ∃ container : Container, ((Session.start .common "h").run
      [("h", .operate (.addField (.text "s") (.octets [49]))),
        ("h", .operate (.addField (.text "ſ") (.octets [50])))]).container? "h" = some container ∧
    container.HoldsText ∧ container.fieldsOf (.text "s") = [.octets [49]] ∧
    container.fieldsOf (.text "ſ") = [.octets [50]] ∧
    container.write .unlimited = (.ok (), { Sink.unlimited with
      written := [.ofPhrase "S: 1\r\n", .ofPhrase "S: 2\r\n"] }) := by
  let container : Container :=
    ⟨.common, ⟨[(.text "s", [.octets [49]]), (.text "ſ", [.octets [50]])]⟩, []⟩
  have sorted : sortNames container.fields.keys = .ok [.text "s", .text "ſ"] :=
    sortNames_of_pairwise (show ["s", "ſ"].Pairwise (· ≤ ·) by decide)
  refine ⟨container, rfl, ⟨by simp [container], by simp [container]⟩, rfl, rfl, ?_⟩
  rw [write_of_headers rfl, sorted]
  rfl

end TypedHeaders.Container
