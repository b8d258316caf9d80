import Mathlib.Logic.Basic
import TypedHeaders.Proofs.HttpDate.Spelling

/-! # Readers and what they take off

A reader of a form takes a piece off the front of a text, and takes it exactly when the text begins
with such a piece. Every reader is met by the predicate for its piece, and the forms are put
together from the pieces in the same order on both sides.
-/

namespace TypedHeaders.HttpDate

/-- A reader takes off exactly the pieces that a predicate admits. -/
def Takes {α : Type} (reader : List Char → Option (α × List Char))
    (piece : List Char → α → Prop) : Prop :=
  ∀ text value rest, reader text = some (value, rest) ↔
    ∃ taken, piece taken value ∧ text = taken ++ rest

/-- The same for a reader that gives no value. -/
def Skips (reader : List Char → Option (List Char)) (piece : List Char → Prop) : Prop :=
  ∀ text rest, reader text = some rest ↔ ∃ taken, piece taken ∧ text = taken ++ rest

/-- A reader that takes the pieces of a kind reads one off the front of any text. -/
theorem Takes.append {α : Type} {reader : List Char → Option (α × List Char)}
    {piece : List Char → α → Prop} (takes : Takes reader piece) {taken : List Char} {value : α}
    (isPiece : piece taken value) (rest : List Char) : reader (taken ++ rest) = some (value, rest) :=
  (takes _ _ _).mpr ⟨taken, isPiece, rfl⟩

/-- A reader that skips the pieces of a kind drops one from the front of any text. -/
theorem Skips.append {reader : List Char → Option (List Char)} {piece : List Char → Prop}
    (skips : Skips reader piece) {taken : List Char} (isPiece : piece taken) (rest : List Char) :
    reader (taken ++ rest) = some rest :=
  (skips _ _).mpr ⟨taken, isPiece, rfl⟩

/-! ## Marks and digits -/

theorem mark?_eq_some_iff (expected : Char) (text rest : List Char) :
    mark? expected text = some rest ↔ text = expected :: rest := by
  cases text with
  | nil => simp [mark?]
  | cons c tail =>
    simp only [mark?, Option.ite_none_right_eq_some, Option.some.injEq, List.cons.injEq]

@[simp]
theorem mark?_cons (expected : Char) (rest : List Char) :
    mark? expected (expected :: rest) = some rest :=
  (mark?_eq_some_iff _ _ _).mpr rfl

private theorem takes_digit : Takes digit? (IsDecimal 1) := by
  intro text value rest
  simp only [isDecimal_one_iff]
  cases text with
  | nil =>
    simp only [digit?, reduceCtorEq, false_iff]
    rintro ⟨_, ⟨c, rfl, -⟩, eq⟩
    cases eq
  | cons c tail =>
    simp only [digit?, Option.ite_none_right_eq_some, Option.some.injEq, Prod.mk.injEq]
    constructor
    · rintro ⟨digit, rfl, rfl⟩
      exact ⟨[c], ⟨c, rfl, digit, rfl⟩, rfl⟩
    · rintro ⟨_, ⟨c', rfl, digit, rfl⟩, eq⟩
      obtain ⟨rfl, rfl⟩ := List.cons.inj eq
      exact ⟨digit, rfl, rfl⟩

private theorem digit?_eq_none {c : Char} (notDigit : c.isDigit = false) (rest : List Char) :
    digit? (c :: rest) = none := by
  simp [digit?, notDigit]

/-- Two readers of digits, one after the other, read the digits of both. -/
private theorem takes_decimals {first second : List Char → Option (Nat × List Char)}
    {width width' : Nat} (takes : Takes first (IsDecimal width))
    (takes' : Takes second (IsDecimal width')) (text : List Char) (total : Nat) (rest : List Char) :
    (∃ value middle value', first text = some (value, middle) ∧ second middle = some (value', rest) ∧
      total = value * 10 ^ width' + value') ↔
      ∃ taken, IsDecimal (width + width') taken total ∧ text = taken ++ rest := by
  constructor
  · rintro ⟨value, middle, value', read, read', rfl⟩
    obtain ⟨taken, decimal, rfl⟩ := (takes _ _ _).mp read
    obtain ⟨taken', decimal', rfl⟩ := (takes' _ _ _).mp read'
    exact ⟨taken ++ taken', decimal.append decimal', (List.append_assoc ..).symm⟩
  · rintro ⟨taken, both, rfl⟩
    obtain ⟨tens, units, value, value', rfl, decimal, decimal', rfl⟩ := both.split
    rw [List.append_assoc]
    exact ⟨value, units ++ rest, value', takes.append decimal _, takes'.append decimal' _, rfl⟩

theorem takes_twoDigits : Takes twoDigits? (IsDecimal 2) := by
  intro text value rest
  rw [← takes_decimals takes_digit takes_digit]
  simp only [twoDigits?, bind, pure, Option.bind_eq_some_iff, Prod.exists, Option.some.injEq,
    Prod.mk.injEq]
  grind

theorem takes_fourDigits : Takes fourDigits? (IsDecimal 4) := by
  intro text value rest
  rw [← takes_decimals takes_twoDigits takes_twoDigits]
  simp only [fourDigits?, bind, pure, Option.bind_eq_some_iff, Prod.exists, Option.some.injEq,
    Prod.mk.injEq]
  grind

/-- A second digit belongs to the day, so a day of one digit ends where no digit follows. -/
theorem shortDay?_append {day : List Char} {value : Nat} (isDay : IsShortDay day value) {mark : Char}
    (notDigit : mark.isDigit = false) (rest : List Char) :
    shortDay? (day ++ mark :: rest) = some (value, mark :: rest) := by
  rcases isDay with one | two
  · simp [shortDay?, takes_digit.append one, digit?_eq_none notDigit]
  · change IsDecimal (1 + 1) day value at two
    obtain ⟨tens, units, first, second, rfl, one, one', rfl⟩ := two.split
    simp [shortDay?, takes_digit.append one, takes_digit.append one']

/-- What the unpadded day reader takes is a day of the grammar. -/
theorem shortDay?_sound {text rest : List Char} {value : Nat}
    (read : shortDay? text = some (value, rest)) :
    ∃ day, IsShortDay day value ∧ text = day ++ rest := by
  simp only [shortDay?, bind, Option.bind_eq_some_iff] at read
  obtain ⟨⟨first, middle⟩, readFirst, read⟩ := read
  obtain ⟨tens, one, rfl⟩ := (takes_digit _ _ _).mp readFirst
  dsimp only at read
  split at read
  · rename_i second after readSecond
    obtain ⟨units, one', rfl⟩ := (takes_digit _ _ _).mp readSecond
    cases read
    exact ⟨tens ++ units, .inr (one.append one'), (List.append_assoc ..).symm⟩
  · cases read
    exact ⟨tens, .inl one, rfl⟩

theorem takes_paddedDay : Takes paddedDay? IsPaddedDay := by
  intro text value rest
  unfold paddedDay?
  split
  · rename_i tail
    rw [takes_digit]
    constructor
    · rintro ⟨digit, one, rfl⟩
      exact ⟨' ' :: digit, .inr ⟨digit, rfl, one⟩, rfl⟩
    · rintro ⟨day, two | ⟨digit, rfl, one⟩, eq⟩
      · obtain ⟨c, others, rfl, isDigit⟩ := two.head
        obtain ⟨rfl, -⟩ := List.cons.inj eq
        contradiction
      · exact ⟨digit, one, (List.cons.inj eq).2⟩
  · rename_i notBlank
    rw [takes_twoDigits]
    constructor
    · rintro ⟨day, two, rfl⟩
      exact ⟨day, .inl two, rfl⟩
    · rintro ⟨day, two | ⟨digit, rfl, one⟩, rfl⟩
      · exact ⟨day, two, rfl⟩
      · exact absurd rfl (notBlank _)

/-! ## Names -/

private theorem skips_word (word : List Char) : Skips (word? word) (Spells · word) := by
  intro text rest
  induction word generalizing text with
  | nil => simp [word?, Spells, eq_comm]
  | cons letter word ih =>
    cases text with
    | nil =>
      simp only [word?, reduceCtorEq, false_iff]
      rintro ⟨taken, spells, eq⟩
      obtain ⟨rfl, -⟩ := List.append_eq_nil_iff.mp eq.symm
      cases spells
    | cons c text =>
      simp only [word?, Option.ite_none_right_eq_some, ih]
      constructor
      · rintro ⟨same, taken, spells, rfl⟩
        refine ⟨c :: taken, ?_, rfl⟩
        change c.toLower :: taken.map Char.toLower = letter.toLower :: word.map Char.toLower
        rw [same, spells]
      · rintro ⟨taken, spells, eq⟩
        cases taken with
        | nil => cases spells
        | cons c' taken =>
          obtain ⟨rfl, rfl⟩ := List.cons.inj eq
          obtain ⟨same, spells⟩ := List.cons.inj spells
          exact ⟨same, taken, spells, rfl⟩

/-- No text begins with a spelling of both words. -/
def Apart (word word' : List Char) : Prop :=
  ¬ word.map Char.toLower <+: word'.map Char.toLower ∧
    ¬ word'.map Char.toLower <+: word.map Char.toLower

instance (word word' : List Char) : Decidable (Apart word word') :=
  inferInstanceAs (Decidable (_ ∧ _))

private theorem Apart.not_spells {word word' taken taken' rest rest' : List Char}
    (apart : Apart word word') (spells : Spells taken word) (spells' : Spells taken' word') :
    taken ++ rest ≠ taken' ++ rest' := by
  intro eq
  have begins : word.map Char.toLower <+: (taken ++ rest).map Char.toLower :=
    ⟨rest.map Char.toLower, by rw [List.map_append, spells]⟩
  have begins' : word'.map Char.toLower <+: (taken ++ rest).map Char.toLower :=
    ⟨rest'.map Char.toLower, by rw [eq, List.map_append, spells']⟩
  rcases List.prefix_or_prefix_of_prefix begins begins' with nested | nested
  · exact apart.1 nested
  · exact apart.2 nested

/-- Of words that are apart at most one is found, and so the first one is the only one. -/
theorem oneOf?_eq_some_iff (words : List (List Char)) (apart : words.Pairwise Apart)
    (first index : Nat) (text rest : List Char) :
    oneOf? first words text = some (index, rest) ↔ ∃ place word taken, words[place]? = some word ∧
      index = first + place ∧ Spells taken word ∧ text = taken ++ rest := by
  induction words generalizing first with
  | nil => simp [oneOf?]
  | cons word words ih =>
    obtain ⟨apartHere, apart⟩ := List.pairwise_cons.mp apart
    simp only [oneOf?]
    split
    · rename_i rest' read
      obtain ⟨taken, spells, rfl⟩ := (skips_word word _ _).mp read
      constructor
      · intro eq
        cases eq
        exact ⟨0, word, taken, rfl, rfl, spells, rfl⟩
      · rintro ⟨place, word', taken', at', rfl, spells', eq⟩
        cases place with
        | zero =>
          obtain rfl : word = word' := by simpa using at'
          have read' := (skips_word word).append spells' rest
          rw [← eq, read] at read'
          cases read'
          rfl
        | succ place =>
          -- A later word in the same place would not be apart from this one.
          have member : word' ∈ words := List.mem_of_getElem? (by simpa using at')
          exact absurd eq ((apartHere word' member).not_spells spells spells')
    · rename_i notRead
      rw [ih apart]
      constructor
      · rintro ⟨place, word', taken, at', rfl, spells, rfl⟩
        exact ⟨place + 1, word', taken, by simpa using at', by omega, spells, rfl⟩
      · rintro ⟨place, word', taken, at', rfl, spells, rfl⟩
        cases place with
        | zero =>
          obtain rfl : word = word' := by simpa using at'
          rw [(skips_word word).append spells] at notRead
          cases notRead
        | succ place =>
          exact ⟨place, word', taken, by simpa using at', by omega, spells, rfl⟩

private theorem skips_oneOf (words : List (List Char)) (apart : words.Pairwise Apart) :
    Skips (fun text => (oneOf? 0 words text).map Prod.snd)
      (fun taken => ∃ word ∈ words, Spells taken word) := by
  intro text rest
  simp only [Option.map_eq_some_iff, Prod.exists, oneOf?_eq_some_iff words apart]
  constructor
  · rintro ⟨index, _, ⟨place, word, taken, at', -, spells, rfl⟩, rfl⟩
    exact ⟨taken, ⟨word, List.mem_of_getElem? at', spells⟩, rfl⟩
  · rintro ⟨taken, ⟨word, member, spells⟩, rfl⟩
    obtain ⟨place, at'⟩ := List.mem_iff_getElem?.mp member
    exact ⟨0 + place, rest, ⟨place, word, taken, at', rfl, spells, rfl⟩, rfl⟩

theorem skips_shortWeekday : Skips shortWeekday? IsShortWeekday := by
  have skips := skips_oneOf (weekdayNames.map abbreviation) (by decide)
  simp only [List.mem_map, exists_exists_and_eq_and] at skips
  exact skips

theorem skips_longWeekday : Skips longWeekday? IsLongWeekday := by
  have skips := skips_oneOf (weekdayNames.map String.toList) (by decide)
  simp only [List.mem_map, exists_exists_and_eq_and] at skips
  exact skips

theorem takes_month : Takes month? IsMonth := by
  intro text month rest
  unfold month?
  rw [oneOf?_eq_some_iff _ (by decide)]
  constructor
  · rintro ⟨place, word, taken, at', rfl, spells, rfl⟩
    rw [List.getElem?_map, Option.map_eq_some_iff] at at'
    obtain ⟨name, at', rfl⟩ := at'
    exact ⟨taken, ⟨place, name, at', rfl, spells⟩, rfl⟩
  · rintro ⟨taken, ⟨place, name, at', rfl, spells⟩, rfl⟩
    exact ⟨place, abbreviation name, taken, by rw [List.getElem?_map, at', Option.map_some], rfl,
      spells, rfl⟩

/-! ## Times, zones and the common head -/

theorem takes_time : Takes time? IsTime := by
  rintro text ⟨hour, minute, second⟩ rest
  constructor
  · intro read
    simp only [time?, bind, pure, Option.bind_eq_some_iff, mark?_eq_some_iff, Option.some.injEq,
      Prod.mk.injEq, Prod.exists] at read
    obtain ⟨_, _, readHour, _, rfl, _, _, readMinute, _, rfl, _, _, readSecond, ⟨rfl, rfl, rfl⟩,
      rfl⟩ := read
    obtain ⟨hours, isHour, rfl⟩ := (takes_twoDigits _ _ _).mp readHour
    obtain ⟨minutes, isMinute, rfl⟩ := (takes_twoDigits _ _ _).mp readMinute
    obtain ⟨seconds, isSecond, rfl⟩ := (takes_twoDigits _ _ _).mp readSecond
    exact ⟨_, ⟨hours, minutes, seconds, rfl, isHour, isMinute, isSecond⟩, by simp⟩
  · rintro ⟨_, ⟨hours, minutes, seconds, rfl, isHour, isMinute, isSecond⟩, rfl⟩
    simp [time?, takes_twoDigits.append isHour, takes_twoDigits.append isMinute,
      takes_twoDigits.append isSecond]

/-- The zone test accepts the zone names of the grammar and no other text. -/
theorem isZoneName_iff (text : List Char) : isZoneName text = true ↔ IsZoneName text := by
  simp [isZoneName, IsZoneName]

/-- The zone reader gives an offset on exactly the zones of the grammar. -/
theorem offset?_eq_some_iff (text : List Char) (ahead : Int) :
    offset? text = some ahead ↔ IsOffset text ahead := by
  constructor
  · intro read
    cases text with
    | nil => cases read
    | cons sign text =>
      simp only [offset?, bind, Option.bind_eq_some_iff, Prod.exists] at read
      obtain ⟨hour, _, readHour, minute, rest, readMinute, read⟩ := read
      obtain ⟨hours, isHour, rfl⟩ := (takes_twoDigits _ _ _).mp readHour
      obtain ⟨minutes, isMinute, rfl⟩ := (takes_twoDigits _ _ _).mp readMinute
      split at read
      · rename_i complete
        obtain ⟨ended, inHour⟩ := complete
        obtain rfl := List.isEmpty_iff.mp ended
        refine ⟨sign, hours ++ minutes, hours, minutes, hour, minute, by simp, rfl, isHour,
          isMinute, inHour, ?_⟩
        grind
      · cases read
  · rintro ⟨sign, _, hours, minutes, hour, minute, rfl, rfl, isHour, isMinute, inHour, ahead⟩
    have readMinute := takes_twoDigits.append isMinute []
    rw [List.append_nil] at readMinute
    rcases ahead with ⟨rfl, rfl⟩ | ⟨rfl, rfl⟩ <;>
      simp [offset?, takes_twoDigits.append isHour, readMinute, inHour]

/-- The reader of date heads takes exactly the heads of the grammar, whatever follows. -/
theorem takes_dayMonthYear : Takes dayMonthYear? IsDayMonthYear := by
  rintro text fields rest
  constructor
  · intro read
    simp only [dayMonthYear?, bind, pure, Option.bind_eq_some_iff, mark?_eq_some_iff,
      Option.some.injEq, Prod.mk.injEq, Prod.exists] at read
    obtain ⟨_, readWeekday, _, rfl, _, rfl, _, _, readDay, _, rfl, _, _, readMonth, _, rfl, _, _,
      readYear, _, rfl, _, _, _, _, readTime, _, rfl, rfl, rfl⟩ := read
    obtain ⟨weekday, isWeekday, rfl⟩ := (skips_shortWeekday _ _).mp readWeekday
    obtain ⟨day, isDay, eq⟩ := shortDay?_sound readDay
    obtain ⟨month, isMonth, rfl⟩ := (takes_month _ _ _).mp readMonth
    obtain ⟨year, isYear, rfl⟩ := (takes_fourDigits _ _ _).mp readYear
    obtain ⟨time, isTime, rfl⟩ := (takes_time _ _ _).mp readTime
    subst eq
    exact ⟨_, ⟨weekday, day, month, year, time, rfl, isWeekday, isDay, isMonth, isYear, isTime,
      rfl⟩, by simp⟩
  · rintro ⟨_, ⟨weekday, day, month, year, time, rfl, isWeekday, isDay, isMonth, isYear, isTime,
      ahead⟩, rfl⟩
    have readDay := shortDay?_append isDay (show ' '.isDigit = false from rfl)
    simp [dayMonthYear?, skips_shortWeekday.append isWeekday, readDay, takes_month.append isMonth,
      takes_fourDigits.append isYear, takes_time.append isTime, ← ahead]

end TypedHeaders.HttpDate
