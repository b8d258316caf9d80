import TypedHeaders.Proofs.Container.Copies
import TypedHeaders.Proofs.Session.Separation

/-! # Copies are equal and independent

A copy of headers is put into a register of its own. It holds the same fields under the same names
and equals the headers that it was made of, and from then on neither shows what is done to the other.
Only the order of names may differ: a deep copy keeps it, and the other copies are sorted.
-/

namespace TypedHeaders

namespace Container

/-- However headers of bytes are copied, the copy holds the same lists of fields. -/
theorem HoldsBytes.copyOf {container : Container} {typeName : String}
    {attributes : List (String × Option Codec)} (holds : container.HoldsBytes)
    (filled : Filled container.fields)
    (isHeaders : container.profile = .headers typeName attributes)
    (keyed : KeyedAsHeaders container.fields) (mode : Session.CopyMode) (place : Nat) :
    ∃ copy, Session.copyOf mode place container = .ok copy ∧
      (Refines (.headers typeName attributes) copy fun name => container.fieldsOf (.text name)) ∧
      (mode = .deep → copy.fields = container.fields) ∧
      (mode ≠ .deep → ∃ names : List String,
        copy.fields.keys = names.map .text ∧ names.Pairwise (· ≤ ·)) := by
  cases mode with
  | deep =>
    have same := holds.copied place
    have refines := holds.refines filled isHeaders keyed
    refine ⟨container.copied place, rfl, ⟨isHeaders, ?_, ?_, ?_⟩, fun _ => same, by simp⟩
    · exact same ▸ refines.names
    · exact same ▸ refines.distinct
    · exact same ▸ refines.found
  | listed | shallow =>
    obtain ⟨copy, made, refines, sorted⟩ := holds.relisted filled isHeaders keyed
    exact ⟨copy, made, refines, by simp, fun _ => sorted⟩

end Container

namespace Session

open Container (perform)

theorem step_copy {session : Session} {source : String} {container copy : Container}
    {mode : CopyMode} {typeName : String} {attributes : List (String × Option Codec)}
    (found : session.container? source = some container)
    (isHeaders : container.profile = .headers typeName attributes)
    (made : copyOf mode session.cells.length container = .ok copy) (target : String) :
    session.step source (.copy mode target) =
      (⟨.ok (.boolean true), none⟩, session.putNew target copy) := by
  obtain ⟨handle, here, rfl⟩ := Option.map_eq_some_iff.mp found
  simp only [step, here, stepOn, copyTo_eq isHeaders, made, Except.map]

/-- In every run that starts with headers: copying headers that hold bytes under ASCII names, each
with a field, does not fail. The copy is of the same type, equals the headers, and has the same fields
in the same order under each name, where a deep copy keeps the order of names and the other copies have
them sorted. After any later run without steps on one of the two, that one is as it was. -/
theorem copy_of_run (typeName : String) (attributes : List (String × Option Codec))
    (register : String) (steps : List (String × Step)) (mode : CopyMode) (source target : String)
    (ne : target ≠ source) {container : Container}
    (found : ((start (.headers typeName attributes) register).run steps).container? source =
      some container)
    (holds : container.HoldsBytes) (filled : Container.Filled container.fields) :
    let session := (start (.headers typeName attributes) register).run steps
    let (outcome, copied) := session.step source (.copy mode target)
    outcome = ⟨.ok (.boolean true), none⟩ ∧ ∃ copy,
      copied.container? source = some container ∧ copied.container? target = some copy ∧
      copy.profile = container.profile ∧
      (perform (.equals (.container container)) copy).1 = .ok (.boolean true) ∧
      (perform (.equals (.container copy)) container).1 = .ok (.boolean true) ∧
      copy.fields.entries.Perm container.fields.entries ∧
      (mode = .deep → copy.fields = container.fields) ∧
      (mode ≠ .deep → ∃ names : List String,
        copy.fields.keys = names.map .text ∧ names.Pairwise (· ≤ ·)) ∧
      ∀ later : List (String × Step),
        ((∀ entry ∈ later, Spares source entry) →
          (copied.run later).container? source = some container) ∧
        ((∀ entry ∈ later, Spares target entry) →
          (copied.run later).container? target = some copy) := by
  intro session
  have ofHeaders : OfHeaders typeName attributes session := (ofHeaders_start register).run steps
  have separate := (Separate.start (.headers typeName attributes) register).run
    (ofHeaders_start register) steps
  obtain ⟨isHeaders, keyed⟩ := ofHeaders.container? found
  obtain ⟨copy, made, refines, deep, sorted⟩ :=
    holds.copyOf filled isHeaders keyed mode session.cells.length
  -- Original and copy hold the same lists, which settles equality in both directions.
  have refines' := holds.refines filled isHeaders keyed
  have octets (name : String) := holds.octets (.text name)
  have step := step_copy found isHeaders made target
  have after := ofHeaders.step source (.copy mode target)
  -- No two handles share a cell after the step either, so what spares a register spares its cell.
  have apart := separate.becomes (ofHeaders.becomes source (.copy mode target))
  rw [step] at after apart ⊢
  have here : (session.putNew target copy).container? source = some container := by
    rw [separate.container?_putNew_of_ne ne, found]
  have there := container?_putNew session target copy
  refine ⟨rfl, copy, here, there, refines.ofProfile.trans isHeaders.symm, ?_, ?_,
    Container.entries_perm_of_refines refines refines', deep, sorted, fun later => ⟨?_, ?_⟩⟩
  · rw [Container.perform_equals, Container.equal_of_refines refines refines' octets]
  · rw [Container.perform_equals, Container.equal_of_refines refines' refines octets]
  · intro spares
    rw [apart.container?_run after spares, here]
  · intro spares
    rw [apart.container?_run after spares, there]

theorem copy_of_run_age : ∃ container copy : Container,
    let session := (start .common "h").run
      [("h", .operate (.addField (.text "X-Mark") (.octets [97]))),
        ("h", .operate (.setValue (.codec .age) (.integer 5)))]
    let copied := (session.step "h" (.copy .shallow "c")).2
    session.container? "h" = some container ∧ container.HoldsBytes ∧
      Container.Filled container.fields ∧ copied.container? "c" = some copy ∧
      (perform (.equals (.container container)) copy).1 = .ok (.boolean true) ∧
      (copied.run [("c", .operate (.addField (.text "Age") (.octets [54]))),
        ("c", .copy .deep "d")]).container? "h" = some container ∧
      (copied.run [("h", .operate .clear)]).container? "c" = some copy := by
  let container : Container :=
    ⟨.common, ⟨[(.text "x-mark", [.octets [97]]), (.text "age", [.octets [53]])]⟩, []⟩
  have holds : container.HoldsBytes := by
    refine ⟨?_, ?_⟩ <;>
      simp only [container, List.mem_cons, List.not_mem_nil, or_false, forall_eq_or_imp, forall_eq]
    · exact ⟨⟨"x-mark", rfl, by decide⟩, ⟨"age", rfl, by decide⟩⟩
    · exact ⟨⟨_, rfl⟩, ⟨_, rfl⟩⟩
  have filled : Container.Filled container.fields := by
    simp only [Container.Filled, container, List.mem_cons, List.not_mem_nil, or_false,
      forall_eq_or_imp, forall_eq]
    exact ⟨List.cons_ne_nil _ _, List.cons_ne_nil _ _⟩
  have found : ((start .common "h").run
      [("h", .operate (.addField (.text "X-Mark") (.octets [97]))),
        ("h", .operate (.setValue (.codec .age) (.integer 5)))]).container? "h" = some container := rfl
  obtain ⟨-, copy, -, there, -, equal, -, -, -, -, later⟩ :=
    copy_of_run "Headers" Profile.commonAttributes "h" _ .shallow "h" "c" (by decide) found holds
      filled
  refine ⟨container, copy, rfl, holds, filled, there, equal, (later _).1 ?_, (later _).2 ?_⟩
  · simp [Spares, Step.target?]
  · simp [Spares, Step.target?]

end Session

end TypedHeaders
