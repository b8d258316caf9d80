import TypedHeaders.Sink

/-! # What a sink takes

Pieces that are given to a sink one after the other are taken whole and in their order, up to the
first one for which the sink has no room. That piece and all after it leave no trace, and the header
that it belongs to is the one that the failure names.
-/

namespace TypedHeaders

namespace Sink

/-- How many more pieces a sink takes, if it does not take any number of them. -/
def room? (sink : Sink) : Option Nat := sink.capacity.map (· - sink.written.length)

/-- How it ends when pieces, each with the name of its header, are given to a sink: the sink takes
them all, or it takes as many as it has room for, and then its fault comes out, which is reported
under the header of the piece that was not taken if it is a fault of the system. -/
inductive Takes (pieces : List (String × Octets)) (sink : Sink) : Except Error Unit × Sink → Prop
  | all (fits : ∀ room, sink.room? = some room → pieces.length ≤ room) :
      Takes pieces sink (.ok (), { sink with written := sink.written ++ pieces.map Prod.snd })
  | system {room : Nat} (limit : sink.room? = some room) (more : room < pieces.length)
      (isSystem : sink.fault.isSystem = true) :
      Takes pieces sink (.error (.notWritten pieces[room].1 sink.fault),
        { sink with written := sink.written ++ (pieces.take room).map Prod.snd })
  | other {room : Nat} (limit : sink.room? = some room) (more : room < pieces.length)
      (notSystem : sink.fault.isSystem = false) :
      Takes pieces sink (.error (.fault sink.fault),
        { sink with written := sink.written ++ (pieces.take room).map Prod.snd })

/-- Giving pieces to a sink, each with the name of its header, until the sink takes no more. -/
def offer : List (String × Octets) → Sink → Except Error Unit × Sink
  | [], sink => (.ok (), sink)
  | (header, data) :: rest, sink =>
    match sink.write data with
    | .ok sink => sink.offer rest
    | .error fault => (.error (fault.whileWriting header), sink)

/-- Offering two runs of pieces is offering the second to what is left after the first. -/
theorem offer_append (first second : List (String × Octets)) (sink : Sink) :
    sink.offer (first ++ second) =
      match sink.offer first with
      | (.ok _, sink) => sink.offer second
      | (.error error, sink) => (.error error, sink) := by
  induction first generalizing sink with
  | nil => rfl
  | cons piece first ih =>
    simp only [List.cons_append, offer]
    cases sink.write piece.2 with
    | ok sink => exact ih sink
    | error fault => rfl

/-- A sink takes a piece and has room for one less, or it has no room. -/
theorem write_cases (data : Octets) (sink : Sink) :
    (∃ after : Sink, after = { sink with written := sink.written ++ [data] } ∧
        sink.write data = .ok after ∧ sink.room? = after.room?.map (· + 1)) ∨
      sink.write data = .error sink.fault ∧ sink.room? = some 0 := by
  obtain ⟨capacity, fault, written⟩ := sink
  cases capacity with
  | none => exact .inl ⟨_, rfl, rfl, rfl⟩
  | some limit =>
    by_cases fits : written.length < limit
    · refine .inl ⟨_, rfl, ?_, ?_⟩
      · simp only [write, accepts, Option.all_some, fits, decide_true, ↓reduceIte]
      · simp only [room?, Option.map_some, List.length_append, List.length_singleton,
          Option.some.injEq]
        omega
    · refine .inr ⟨?_, ?_⟩
      · simp only [write, accepts, Option.all_some, fits, decide_false, Bool.false_eq_true,
          ↓reduceIte]
      · simp only [room?, Option.map_some, Option.some.injEq]
        omega

private theorem takes_of_full {sink : Sink} (full : sink.room? = some 0) (header : String)
    (data : Octets) (rest : List (String × Octets)) :
    sink.Takes ((header, data) :: rest) (.error (sink.fault.whileWriting header), sink) := by
  have positive : 0 < ((header, data) :: rest).length := Nat.succ_pos _
  have same : { sink with written := sink.written ++ [] } = sink := by rw [List.append_nil]
  cases isSystem : sink.fault.isSystem with
  | true =>
    have takes := Takes.system full positive isSystem
    simp only [List.take_zero, List.map_nil, List.getElem_cons_zero, same] at takes
    simpa only [Fault.whileWriting, isSystem, ↓reduceIte] using takes
  | false =>
    have takes := Takes.other full positive isSystem
    simp only [List.take_zero, List.map_nil, same] at takes
    simpa only [Fault.whileWriting, isSystem, Bool.false_eq_true, ↓reduceIte] using takes

/-- After a piece was taken the rest fares as if it had been given alone. -/
theorem Takes.cons {sink after : Sink} {header : String} {data : Octets}
    {rest : List (String × Octets)} {run : Except Error Unit × Sink}
    (taken : after = { sink with written := sink.written ++ [data] })
    (room : sink.room? = after.room?.map (· + 1)) (takes : after.Takes rest run) :
    sink.Takes ((header, data) :: rest) run := by
  have joined (pieces : List (String × Octets)) : after.written ++ pieces.map Prod.snd =
      sink.written ++ ((header, data) :: pieces).map Prod.snd := by
    simp [taken]
  have fault : after.fault = sink.fault := by rw [taken]
  have capacity : after.capacity = sink.capacity := by rw [taken]
  cases takes with
  | all fits =>
    rw [joined, fault, capacity]
    refine .all fun left limit => ?_
    rw [room] at limit
    obtain ⟨left', limit', rfl⟩ := Option.map_eq_some_iff.mp limit
    exact Nat.succ_le_succ (fits left' limit')
  | system limit more isSystem =>
    rw [limit, Option.map_some] at room
    have more' : _ < ((header, data) :: rest).length := Nat.succ_lt_succ more
    rw [joined, fault, capacity]
    exact .system room more' (fault ▸ isSystem)
  | other limit more notSystem =>
    rw [limit, Option.map_some] at room
    have more' : _ < ((header, data) :: rest).length := Nat.succ_lt_succ more
    rw [joined, fault, capacity]
    exact .other room more' (fault ▸ notSystem)

/-- What offering the pieces comes to is one of the ways a sink can take them. -/
theorem takes_offer (pieces : List (String × Octets)) (sink : Sink) :
    sink.Takes pieces (sink.offer pieces) := by
  induction pieces generalizing sink with
  | nil =>
    have same : { sink with written := sink.written ++ [] } = sink := by rw [List.append_nil]
    have takes : sink.Takes [] (.ok (), { sink with written := sink.written ++ [] }) :=
      .all fun _ _ => Nat.zero_le _
    rwa [same] at takes
  | cons piece rest ih =>
    rw [offer]
    rcases write_cases piece.2 sink with ⟨after, taken, write, room⟩ | ⟨write, full⟩
    · rw [write]
      exact (ih after).cons taken room
    · rw [write]
      exact takes_of_full full _ _ _

/-- What a sink gets is the beginning of what it is given. -/
theorem Takes.written {pieces : List (String × Octets)} {sink : Sink}
    {run : Except Error Unit × Sink} (takes : sink.Takes pieces run) :
    ∃ count, run.2.written = sink.written ++ (pieces.take count).map Prod.snd := by
  cases takes with
  | all => exact ⟨pieces.length, by rw [List.take_length]⟩
  | system => exact ⟨_, rfl⟩
  | other => exact ⟨_, rfl⟩

/-- A sink that never fails takes everything. -/
theorem offer_of_endless {sink : Sink} (endless : sink.capacity = none)
    (pieces : List (String × Octets)) :
    sink.offer pieces =
      (.ok (), { sink with written := sink.written ++ pieces.map Prod.snd }) := by
  have noLimit : sink.room? = none := by rw [room?, endless, Option.map_none]
  have takes := takes_offer pieces sink
  generalize sink.offer pieces = run at takes
  cases takes with
  | all => rfl
  | system limit => cases noLimit.symm.trans limit
  | other limit => cases noLimit.symm.trans limit

end Sink

/-- A value is written as one piece, and nothing is written of a value that is refused. -/
theorem Codec.write_eq (codec : Codec) (value : Value) (sink : Sink) :
    codec.write value sink =
      match codec.encode value with
      | .ok data => sink.offer [(codec.header.getD "None", data)]
      | .error refusal => (.error refusal, sink) := by
  unfold write
  cases codec.encode value with
  | error refusal => rfl
  | ok data =>
    cases taken : sink.write data with
    | ok after => simp only [Sink.offer, taken]
    | error fault => simp only [Sink.offer, taken]

end TypedHeaders
