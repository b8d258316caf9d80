import TypedHeaders.Proofs.Container.Moves

/-! # What a failure leaves behind

An operation that fails leaves the container as it was. A merge alone does its work in parts: it sets
one field after the other, and where it fails, the fields of the pairs before are set and nothing else
is done.
-/

namespace TypedHeaders.Container

/-- The last fields of names set in order, without a failure. -/
inductive Assigns : List (Value × Value) → Container → Container → Prop
  | nil (container : Container) : Assigns [] container container
  | cons {name field : Value} {rest : List (Value × Value)} {container middle after : Container}
      (first : perform (.setLast name field) container = (.ok .null, middle))
      (others : Assigns rest middle after) : Assigns ((name, field) :: rest) container after

/-- What fails as a pair to be set: it is no pair, or its field cannot be set under its name. -/
inductive Refused (container : Container) (error : Error) : Except Error (Value × Value) → Prop
  | noPair : Refused container error (.error error)
  | notSet {name field : Value}
      (failed : perform (.setLast name field) container = (.error error, container)) :
      Refused container error (.ok (name, field))

/-- Where a merge that fails has stopped. -/
inductive Interrupted (operand : Option Operand) (named : List (String × Value)) (error : Error)
    (container : Container) : Container → Prop
  | unreadable (noPairs : mergedPairs operand named = .error error) :
      Interrupted operand named error container container
  | stopped {before : List (Value × Value)} {failing : Except Error (Value × Value)}
      {rest : List (Except Error (Value × Value))} {stop : Container}
      (pairs : mergedPairs operand named = .ok (before.map .ok ++ failing :: rest))
      (assigns : Assigns before container stop) (refused : Refused stop error failing) :
      Interrupted operand named error container stop

/-! ## One pair after the other -/

/-- A pair that cannot be made ends the storing with its error. -/
theorem setLasts_cons_of_error (error : Error) (pairs : List (Except Error (Value × Value)))
    (container : Container) :
    setLasts (.error error :: pairs) container = (.error error, container) := by
  simp only [setLasts, List.forM_eq_forM, List.forM_cons, bind_apply, compute_apply]

theorem setLasts_cons_of_ok (name field : Value) (pairs : List (Except Error (Value × Value))) :
    setLasts (.ok (name, field) :: pairs) = setLast name field >>= fun _ => setLasts pairs := by
  funext container
  simp only [setLasts, List.forM_eq_forM, List.forM_cons, bind_apply, compute_apply]

/-- Pairs that are set without a failure leave the rest to be set where they end. -/
theorem Assigns.setLasts_append {before : List (Value × Value)} {container stop : Container}
    (assigns : Assigns before container stop) (rest : List (Except Error (Value × Value))) :
    setLasts (before.map .ok ++ rest) container = setLasts rest stop := by
  induction assigns with
  | nil => rfl
  | cons first others ih =>
    rw [List.map_cons, List.cons_append, setLasts_cons_of_ok, bind_apply,
      (silently_eq_ok_iff ..).mp first]
    exact ih

private theorem Refused.setLasts_cons {container : Container} {error : Error}
    {failing : Except Error (Value × Value)} (refused : Refused container error failing)
    (rest : List (Except Error (Value × Value))) :
    setLasts (failing :: rest) container = (.error error, container) := by
  cases refused with
  | noPair => exact setLasts_cons_of_error ..
  | notSet failed =>
    rw [setLasts_cons_of_ok, bind_apply, (silently_eq_error_iff ..).mp failed]

/-- Setting that fails has set some pairs, and the one after them is refused. -/
theorem exists_refused_of_setLasts {pairs : List (Except Error (Value × Value))}
    {container stop : Container} {error : Error}
    (failed : setLasts pairs container = (.error error, stop)) :
    ∃ before failing rest, pairs = before.map .ok ++ failing :: rest ∧
      Assigns before container stop ∧ Refused stop error failing := by
  induction pairs generalizing container with
  | nil => cases failed
  | cons pair pairs ih =>
    cases pair with
    | error refusal =>
      rw [setLasts_cons_of_error] at failed
      cases failed
      exact ⟨[], _, pairs, rfl, .nil _, .noPair⟩
    | ok pair =>
      obtain ⟨name, field⟩ := pair
      have ends := single_setLast name field container
      rw [setLasts_cons_of_ok, bind_apply] at failed
      rcases run : setLast name field container with ⟨refusal | ⟨⟩, middle⟩ <;> rw [run] at failed
      · rw [run] at ends
        cases ends
        cases failed
        exact ⟨[], _, pairs, rfl, .nil _, .notSet ((silently_eq_error_iff ..).mpr run)⟩
      · -- The first pair is set, so what fails is one of the others, after it.
        obtain ⟨before, failing, rest, rfl, assigns, refused⟩ := ih failed
        exact ⟨(name, field) :: before, failing, rest, rfl,
          .cons ((silently_eq_ok_iff ..).mpr run) assigns, refused⟩

/-! ## Merging -/

/-- A merge fails where its pairs cannot be had, or where some of them are set and the next one is
refused. -/
theorem perform_merge_eq_error_iff (operand : Option Operand) (named : List (String × Value))
    (container stop : Container) (error : Error) :
    perform (.merge operand named) container = (.error error, stop) ↔
      Interrupted operand named error container stop := by
  rw [perform, Operation.action, silently_eq_error_iff, merge_eq, bind_apply, compute_apply]
  constructor
  · intro failed
    cases made : mergedPairs operand named with
    | error refusal =>
      rw [made] at failed
      cases failed
      exact .unreadable made
    | ok pairs =>
      rw [made] at failed
      obtain ⟨before, failing, rest, rfl, assigns, refused⟩ := exists_refused_of_setLasts failed
      exact .stopped made assigns refused
  · intro interrupted
    cases interrupted with
    | unreadable made => rw [made]
    | stopped made assigns refused =>
      rw [made]
      exact (assigns.setLasts_append _).trans (refused.setLasts_cons _)

/-- Whatever is asked of a container, if it fails, the container is the same as before. Only after a
merge it is the one in which the pairs before the failing one are set. -/
theorem eq_or_interrupted_of_failed (operation : Operation) (container : Container) (error : Error)
    (failed : (perform operation container).1 = .error error) :
    (operation.IsSingle → (perform operation container).2 = container) ∧
      ∀ operand named, operation = .merge operand named →
        Interrupted operand named error container (perform operation container).2 := by
  constructor
  · intro isSingle
    rcases perform_cases isSingle container with ends | ⟨key, vacates⟩
    · generalize perform operation container = run at failed ends
      cases ends with
      | failed refusal => rfl
      | done => cases failed
    · rw [perform_of_vacates vacates] at failed
      cases failed
  · rintro operand named rfl
    exact (perform_merge_eq_error_iff ..).mp (Prod.ext failed rfl)

theorem eq_or_interrupted_of_failed_age :
    let operand := Operand.plain (.mapping [(.text "Age", .octets [49]), (.integer 7, .octets [50])])
    let named := [("Via", Value.octets [51])]
    let outcome := perform (.merge (some operand) named) (.new .common)
    let error := Error.noAttribute (.ofObject "int" "lower")
    outcome.1 = .error error ∧ Interrupted (some operand) named error (.new .common) outcome.2 ∧
      outcome.2.fields.entries = [(.text "age", [.octets [49]])] :=
  ⟨rfl, (eq_or_interrupted_of_failed (.merge _ _) (.new .common) _ rfl).2 _ _ rfl, rfl⟩

end TypedHeaders.Container
