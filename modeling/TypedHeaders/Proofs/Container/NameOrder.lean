import Mathlib.Data.List.TakeWhile
import TypedHeaders.Container.NameOrder

/-! # Which names have an order

Names of one kind are put in order, and of names of both kinds two that differ in kind are reported. A
run has names of one kind only, so it is enough to follow one name of each run: a step that compares
runs leaves a run of every kind that there was, and fails only over two runs that differ.
-/

namespace TypedHeaders.Container

/-- All names are text, or all are bytes. -/
def AreAlike (names : List Value) : Prop :=
  ∀ name ∈ names, ∀ other ∈ names, name.typeName = other.typeName

/-- Being of one type does not depend on the order of the names. -/
theorem AreAlike.perm {names names' : List Value} (alike : AreAlike names)
    (perm : names.Perm names') : AreAlike names' := fun name member other member' =>
  alike name (perm.mem_iff.mpr member) other (perm.mem_iff.mpr member')

/-- Names of one type are alike. -/
theorem areAlike_of_forall {names : List Value} (kind : String)
    (every : ∀ name ∈ names, name.typeName = kind) : AreAlike names :=
  fun name member other member' => (every name member).trans (every other member').symm

/-- What comes out of comparing some names: a result of which something holds, or the report of two of
them that differ in kind. -/
inductive Compares {α : Type} (names : List Value) (holds : α → Prop) : Except Error α → Prop
  | ok (result : α) (here : holds result) : Compares names holds (.ok result)
  | error {name other : Value} (member : name ∈ names) (member' : other ∈ names)
      (apart : name.typeName ≠ other.typeName) : Compares names holds (.error (unordered name other))

namespace Compares

variable {α β : Type} {names : List Value} {holds : α → Prop} {outcome : Except Error α}

/-- What was compared may be among more names, and less may be said of the result. -/
theorem imp (compares : Compares names holds outcome) {names' : List Value} (subset : names ⊆ names')
    {holds' : α → Prop} (implies : ∀ result, holds result → holds' result) :
    Compares names' holds' outcome := by
  cases compares with
  | ok result here => exact .ok result (implies result here)
  | error member member' apart => exact .error (subset member) (subset member') apart

/-- Two steps that compare among some names are one that does. -/
theorem bind (compares : Compares names holds outcome) {holds' : β → Prop}
    {next : α → Except Error β} (follows : ∀ result, holds result → Compares names holds' (next result)) :
    Compares names holds' (outcome >>= next) := by
  cases compares with
  | ok result here => exact follows result here
  | error member member' apart => exact .error member member' apart

end Compares

/-- Some names of which there is one of every kind that is among others. -/
structure Represents (some all : List Value) : Prop where
  subset : some ⊆ all
  each : ∀ name ∈ all, ∃ other ∈ some, other.typeName = name.typeName

namespace Represents

variable {some all : List Value}

theorem refl (names : List Value) : Represents names names :=
  ⟨List.Subset.refl _, fun name member => ⟨name, member, rfl⟩⟩

/-- Names are alike when those that represent them are. -/
theorem areAlike (represents : Represents some all) (alike : AreAlike some) : AreAlike all := by
  intro name member name' member'
  obtain ⟨other, among, same⟩ := represents.each name member
  obtain ⟨other', among', same'⟩ := represents.each name' member'
  rw [← same, ← same', alike other among other' among']

theorem trans {fewer : List Value} (first : Represents fewer some) (second : Represents some all) :
    Represents fewer all := by
  refine ⟨List.Subset.trans first.subset second.subset, fun name member => ?_⟩
  obtain ⟨other, among, same⟩ := second.each name member
  obtain ⟨other', among', same'⟩ := first.each other among
  exact ⟨other', among', same'.trans same⟩

/-- One name may be left out beside another of its kind. -/
theorem of_dropped {kept dropped : Value} (alike : kept.typeName = dropped.typeName)
    (member : kept ∈ some) (same : ∀ name, name ∈ all ↔ name = dropped ∨ name ∈ some) :
    Represents some all := by
  refine ⟨fun name among => (same name).mpr (.inr among), fun name among => ?_⟩
  rcases (same name).mp among with rfl | among
  · exact ⟨kept, member, alike⟩
  · exact ⟨name, among, rfl⟩

end Represents

namespace NameRun

private theorem compares_join (left right : NameRun) :
    Compares [right.name, left.name]
      (fun run => run.name = left.name ∧ left.name.typeName = right.name.typeName)
      (left.join right) := by
  unfold join
  split
  · rename_i alike
    exact .ok _ ⟨rfl, alike⟩
  · rename_i apart
    exact .error (by simp) (by simp) (Ne.symm apart)

private theorem compares_settle (depth : Nat) (last : NameRun) (runs : List NameRun) :
    Compares ((last :: runs).map name)
      (fun settled => Represents (settled.map name) ((last :: runs).map name))
      (settle depth last runs) := by
  induction runs generalizing last with
  | nil => exact .ok _ (.refl _)
  | cons before runs ih =>
    rw [settle]
    split
    · refine ((compares_join before last).imp (by simp) fun _ joined => joined).bind ?_
      rintro joined ⟨same, alike⟩
      have represents : Represents ((joined :: runs).map name) ((last :: before :: runs).map name) :=
        .of_dropped alike (by simp [same]) (by simp [same])
      exact (ih joined).imp represents.subset fun settled fewer => fewer.trans represents
    · exact .ok _ (.refl _)

/-- Once the pending runs are merged into one, their names have turned out alike. -/
theorem compares_collapse (last : NameRun) (runs : List NameRun) :
    Compares ((last :: runs).map name) (fun _ => AreAlike ((last :: runs).map name))
      (collapse last runs) := by
  induction last, runs using collapse.induct with
  | case1 last =>
    rw [collapse]
    exact .ok _ (areAlike_of_forall last.name.typeName (by simp))
  | case2 last before =>
    rw [collapse]
    refine (compares_join before last).imp (by simp) fun _ joined => ?_
    exact areAlike_of_forall before.name.typeName (by simp [joined.2])
  | case3 last before first runs shorter ih =>
    rw [collapse, if_pos shorter]
    refine ((compares_join first before).imp (by simp) fun _ joined => joined).bind ?_
    rintro joined ⟨same, alike⟩
    have represents : Represents ((last :: joined :: runs).map name)
        ((last :: before :: first :: runs).map name) :=
      .of_dropped alike (by simp [same]) (by simp [same, or_left_comm])
    exact (ih joined).imp represents.subset fun _ => represents.areAlike
  | case4 last before first runs longer ih =>
    rw [collapse, if_neg longer]
    refine ((compares_join before last).imp (by simp) fun _ joined => joined).bind ?_
    rintro joined ⟨same, alike⟩
    have represents : Represents ((joined :: first :: runs).map name)
        ((last :: before :: first :: runs).map name) :=
      .of_dropped alike (by simp [same]) (by simp [same])
    exact (ih joined).imp represents.subset fun _ => represents.areAlike

/-- A run is found whose names are all of the kind of the first one. -/
theorem compares_lengthAt (least : Nat) (first : Value) (rest : List Value) :
    Compares (first :: rest)
      (fun length => ∀ name ∈ rest.take (length - 1), name.typeName = first.typeName)
      (lengthAt least first rest) := by
  let ofKind (name : Value) : Bool := name.typeName = first.typeName
  have parts : rest.takeWhile ofKind ++ rest.dropWhile ofKind = rest :=
    List.takeWhile_append_dropWhile
  have alike (name : Value) (member : name ∈ rest.takeWhile ofKind) :
      name.typeName = first.typeName := by
    simpa only [ofKind, decide_eq_true_eq] using List.mem_takeWhile_imp member
  unfold lengthAt
  dsimp only
  generalize max (List.length _) _ = length
  split
  · rename_i other others after
    have stops := List.head?_dropWhile_not ofKind rest
    change rest.dropWhile ofKind = other :: others at after
    rw [after] at parts stops
    have apart : other.typeName ≠ first.typeName := by simpa [ofKind] using stops
    have member : other ∈ rest := parts ▸ List.mem_append_right _ (List.mem_cons_self ..)
    split
    · exact .error (List.mem_cons_of_mem _ member) (List.mem_cons_self ..) apart
    · rename_i enough
      refine .ok _ fun name member => alike name ?_
      rw [List.length_cons, not_or, Nat.not_lt] at enough
      rw [← parts, List.take_append_of_le_length (Nat.sub_le_of_le_add enough.2)] at member
      exact List.mem_of_mem_take member
  · rename_i after
    change rest.dropWhile ofKind = [] at after
    rw [after, List.append_nil] at parts
    refine .ok _ fun name member => alike name ?_
    rw [parts]
    exact List.mem_of_mem_take member

private theorem compares_makeRoom (total length : Nat) (runs : List NameRun) :
    Compares (runs.map name) (fun settled => Represents (settled.map name) (runs.map name))
      (makeRoom total length runs) := by
  cases runs with
  | nil => exact .ok _ (.refl _)
  | cons last runs => exact compares_settle _ last runs

/-- The first name of a run stands for the others of it, and each run before for those that it was
joined of. -/
private theorem represents_after_run {first : Value} {rest joined before : List Value} {count : Nat}
    (fewer : Represents joined before)
    (inRun : ∀ name ∈ rest.take count, name.typeName = first.typeName) :
    Represents (first :: joined ++ rest.drop count) (before ++ first :: rest) := by
  refine ⟨?_, fun name member => ?_⟩
  · have dropped := List.drop_subset count rest
    have kept := fewer.subset
    intro name
    simp only [List.cons_append, List.mem_cons, List.mem_append]
    rintro (rfl | member | member)
    · exact .inr (.inl rfl)
    · exact .inl (kept member)
    · exact .inr (.inr (dropped member))
  · simp only [List.cons_append, List.mem_cons, List.mem_append]
    rw [List.mem_append, List.mem_cons, ← List.take_append_drop count rest,
      List.mem_append] at member
    rcases member with member | rfl | member | member
    · obtain ⟨other, among, same⟩ := fewer.each name member
      exact ⟨other, .inr (.inl among), same⟩
    · exact ⟨name, .inl rfl, rfl⟩
    · exact ⟨first, .inl rfl, (inRun name member).symm⟩
    · exact ⟨name, .inr (.inr member), rfl⟩

/-- The comparisons of some names succeed exactly if all of them and those of the runs before are of
one kind. -/
theorem compares_compareAll (total start : Nat) (runs : List NameRun) (names : List Value) :
    Compares (runs.map name ++ names) (fun _ => AreAlike (runs.map name ++ names))
      (compareAll total start runs names) := by
  induction start, runs, names using compareAll.induct with
  | case1 start =>
    rw [compareAll]
    exact .ok _ (List.forall_mem_nil _)
  | case2 start last before =>
    rw [compareAll, List.append_nil]
    exact (compares_collapse last before).bind fun _ alike => .ok _ alike
  | case3 start runs first rest ih =>
    rw [compareAll]
    refine ((compares_lengthAt _ first rest).imp (by simp) fun _ found => found).bind ?_
    intro length inRun
    refine ((compares_makeRoom total length runs).imp (by simp) fun _ fewer => fewer).bind ?_
    intro before fewer
    have represents : Represents
        ((⟨first, start, length, 0⟩ :: before : List NameRun).map name ++ rest.drop (length - 1))
        (runs.map name ++ first :: rest) := represents_after_run fewer inRun
    exact (ih length before).imp represents.subset fun _ => represents.areAlike

end NameRun

/-- Names of one kind are put in order. -/
theorem sortNames_of_alike {names : List Value} (alike : AreAlike names) :
    sortNames names = .ok (names.mergeSort nameLe) := by
  have compares := NameRun.compares_compareAll names.length 0 [] names
  rw [sortNames]
  generalize NameRun.compareAll names.length 0 [] names = outcome at compares
  cases compares with
  | ok => rfl
  | error member member' apart => exact (apart (alike _ member _ member')).elim

/-- Of names of both kinds two that differ in kind are reported. -/
theorem sortNames_of_not_alike {names : List Value} (mixed : ¬ AreAlike names) :
    ∃ name ∈ names, ∃ other ∈ names, name.typeName ≠ other.typeName ∧
      sortNames names = .error (unordered name other) := by
  have compares := NameRun.compares_compareAll names.length 0 [] names
  rw [sortNames]
  generalize NameRun.compareAll names.length 0 [] names = outcome at compares
  cases compares with
  | ok _ alike => exact (mixed alike).elim
  | error member member' apart => exact ⟨_, member, _, member', apart, rfl⟩

end TypedHeaders.Container
