import Mathlib.Data.List.Basic
import TypedHeaders.Proofs.Container.Writing
import TypedHeaders.Proofs.Session

/-! # Writing to sinks that fail

A sink that fails has taken whole lines, in the order in which fields are listed, and nothing of the
line at which it failed. The failure names the header of that line if it is one of the system, and
comes out as it is otherwise. Nothing is changed by writing, however it ends.
-/

namespace TypedHeaders

namespace Session

/-- Writing a container leaves the session as it is. -/
theorem step_write {session : Session} {register : String} {container : Container}
    (found : session.container? register = some container) (sink : Sink) :
    session.step register (.write sink) =
      (⟨(container.write sink).1.map fun _ => .null, some (container.write sink).2.contents⟩,
        session) := by
  obtain ⟨handle, here, rfl⟩ := Option.map_eq_some_iff.mp found
  simp only [step, here, stepOn]

end Session

namespace Container

/-- Headers that hold bytes under ASCII names are written line by line, in the order in which fields
are listed, as far as the sink takes the lines. -/
theorem HoldsBytes.takes_write {container : Container} (holds : container.HoldsBytes)
    (isHeaders : container.profile ≠ .plain) (distinct : container.fields.Distinct) :
    ∃ pairs : List (String × Octets),
      container.listed = .ok (pairs.map fun pair => (.text pair.1, .octets pair.2)) ∧
      pairs.length = container.fields.pairs.length ∧
      ∀ sink : Sink, sink.Takes (pairs.map wirePiece) (container.write sink) := by
  obtain ⟨names, data, octets, -, ascii⟩ := holds.holdsOctets distinct
  refine ⟨sortedPairs names data, octets.listed isHeaders, octets.length_sortedPairs distinct, ?_⟩
  intro sink
  rw [octets.write_eq_offer isHeaders fun name member => Name.isAscii_display (ascii name member)]
  exact Sink.takes_offer _ sink

/-- In every run that starts with headers: headers whose names are ASCII and whose fields are bytes
give a sink one piece for each field, in the order in which fields are listed, and leave the session
as it is. A codec gives it the encoded value as one piece, or nothing if it refuses the value. What
the sink takes of these pieces and how a failure is reported is the same in both cases. -/
theorem write_of_run (typeName : String) (attributes : List (String × Option Codec))
    (register : String) (steps : List (String × Session.Step)) {target : String}
    {container : Container} :
    let session := (Session.start (.headers typeName attributes) register).run steps
    (session.container? target = some container → container.HoldsBytes →
      ∃ pairs : List (String × Octets),
        container.listed = .ok (pairs.map fun pair => (.text pair.1, .octets pair.2)) ∧
        pairs.length = container.fields.pairs.length ∧
        ∀ sink : Sink,
          sink.Takes (pairs.map wirePiece) (container.write sink) ∧
          session.step target (.write sink) =
            (⟨(container.write sink).1.map fun _ => .null,
              some (container.write sink).2.contents⟩, session)) ∧
      ∀ (codec : Codec) (value : Value) (sink : Sink),
        (∀ refusal, codec.encode value = .error refusal →
          codec.write value sink = (.error refusal, sink)) ∧
        ∀ data, codec.encode value = .ok data →
          sink.Takes [(codec.header.getD "None", data)] (codec.write value sink) := by
  refine ⟨fun found holds => ?_, fun codec value sink => ⟨fun refusal refused => ?_,
    fun data encoded => ?_⟩⟩
  · obtain ⟨isHeaders, keyed⟩ :=
      ((Session.ofHeaders_start register).run steps).container? found
    have notPlain : container.profile ≠ .plain := by simp [isHeaders]
    obtain ⟨pairs, listed, count, takes⟩ := holds.takes_write notPlain keyed.distinct
    exact ⟨pairs, listed, count, fun sink => ⟨takes sink, Session.step_write found sink⟩⟩
  · rw [Codec.write_eq, refused]
  · rw [Codec.write_eq, encoded]
    exact Sink.takes_offer _ sink

theorem write_of_run_age : ∃ container : Container,
    ((Session.start .common "h").run
      [("h", .operate (.addField (.text "X-Mark") (.octets [97]))),
        ("h", .operate (.setValue (.codec .age) (.integer 5)))]).container? "h" = some container ∧
    container.HoldsBytes ∧ ∃ header line, ∀ fault : Fault,
      container.write ⟨some 1, fault, []⟩ =
        (.error (if fault.isSystem then .notWritten header fault else .fault fault),
          ⟨some 1, fault, [line]⟩) := by
  let container : Container :=
    ⟨.common, ⟨[(.text "x-mark", [.octets [97]]), (.text "age", [.octets [53]])]⟩, []⟩
  have holds : container.HoldsBytes := by
    refine ⟨?_, ?_⟩ <;>
      simp only [container, List.mem_cons, List.not_mem_nil, or_false, forall_eq_or_imp, forall_eq]
    · exact ⟨⟨"x-mark", rfl, by decide⟩, ⟨"age", rfl, by decide⟩⟩
    · exact ⟨⟨_, rfl⟩, ⟨_, rfl⟩⟩
  have found : ((Session.start .common "h").run
      [("h", .operate (.addField (.text "X-Mark") (.octets [97]))),
        ("h", .operate (.setValue (.codec .age) (.integer 5)))]).container? "h" = some container := rfl
  obtain ⟨pairs, -, count, takes⟩ :=
    (write_of_run "Headers" Profile.commonAttributes "h" _).1 found holds
  obtain ⟨first, second, rfl⟩ := List.length_eq_two.mp count
  refine ⟨container, found, holds, second.1, wireLine first, fun fault => ?_⟩
  have takes := (takes ⟨some 1, fault, []⟩).1
  generalize container.write ⟨some 1, fault, []⟩ = run at takes ⊢
  cases takes with
  | all fits => exact absurd (fits 1 rfl) (Nat.lt_irrefl 1)
  | system limit _ isSystem =>
    cases limit
    rw [if_pos isSystem]
    rfl
  | other limit _ notSystem =>
    cases limit
    rw [if_neg (Bool.eq_false_iff.mp notSystem)]
    rfl

end Container

end TypedHeaders
