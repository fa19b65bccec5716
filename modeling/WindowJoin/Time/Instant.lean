/-!
# Instants

An instant is a number of seconds since 1970 and a number of nanoseconds past that second. Seconds
run over the years -262143 to 262142. Nanoseconds of 1,000,000,000 and more stand for a leap second
and occur only in the last second of a minute. `ofParts?` is the only way in, `add?` and `since`
move along the line of instants, and instants are ordered as pairs. Spans of time are integers that
count nanoseconds.
-/

namespace WindowJoin

/-- The nanoseconds in a second. -/
def nanosPerSecond : Nat := 1000000000

/-- The nanoseconds in a millisecond. -/
def nanosPerMilli : Nat := 1000000

/-- The first second that an instant can lie in, the start of the year -262143. -/
def earliestSecond : Int := -8334601228800

/-- The last second that an instant can lie in, the end of the year 262142. -/
def latestSecond : Int := 8210266876799

/-- A point in time, as seconds since 1970 and nanoseconds past that second. -/
structure Instant where
  seconds : Int
  nanos : Nat
  earliest_le : earliestSecond ≤ seconds
  le_latest : seconds ≤ latestSecond
  nanos_bound : nanos < nanosPerSecond ∨ nanos < 2 * nanosPerSecond ∧ seconds % 60 = 59
  deriving DecidableEq, Repr

namespace Instant

/-- Instants with the same parts are equal. -/
theorem ext_parts {first second : Instant} (hseconds : first.seconds = second.seconds)
    (hnanos : first.nanos = second.nanos) : first = second := by
  cases first
  cases second
  simp_all

/-- The instant with these parts, if they are in range. -/
def ofParts? (seconds : Int) (nanos : Nat) : Option Instant :=
  if h : (earliestSecond ≤ seconds ∧ seconds ≤ latestSecond) ∧
      (nanos < nanosPerSecond ∨ nanos < 2 * nanosPerSecond ∧ seconds % 60 = 59) then
    some ⟨seconds, nanos, h.1.1, h.1.2, h.2⟩
  else none

/-- The parts of an instant give it back. -/
theorem of_parts_parts (time : Instant) : ofParts? time.seconds time.nanos = some time :=
  dif_pos ⟨⟨time.earliest_le, time.le_latest⟩, time.nanos_bound⟩

/-- An instant that is built has the parts that it was built from. -/
theorem parts_of_of_parts {seconds : Int} {nanos : Nat} {time : Instant}
    (h : ofParts? seconds nanos = some time) : time.seconds = seconds ∧ time.nanos = nanos := by
  unfold ofParts? at h
  split at h
  · cases h
    exact ⟨rfl, rfl⟩
  · cases h

/-- The first instant without a leap second before it. -/
def earliest : Instant :=
  ⟨earliestSecond, 0, by decide, by decide, by decide⟩

/-- The last instant outside a leap second. -/
def latest : Instant :=
  ⟨latestSecond, 999999999, by decide, by decide, by decide⟩

/-- The start of 1970. -/
def epoch : Instant :=
  ⟨0, 0, by decide, by decide, by decide⟩

instance : Inhabited Instant := ⟨epoch⟩

instance : LT Instant :=
  ⟨fun first second =>
    first.seconds < second.seconds ∨ first.seconds = second.seconds ∧ first.nanos < second.nanos⟩

instance : LE Instant :=
  ⟨fun first second =>
    first.seconds < second.seconds ∨ first.seconds = second.seconds ∧ first.nanos ≤ second.nanos⟩

/-- Instants are ordered by their seconds, and within a second by their nanoseconds. -/
theorem lt_def {first second : Instant} : first < second ↔
    first.seconds < second.seconds ∨ first.seconds = second.seconds ∧ first.nanos < second.nanos :=
  Iff.rfl

/-- The weak order of instants, by parts. -/
theorem le_def {first second : Instant} : first ≤ second ↔
    first.seconds < second.seconds ∨ first.seconds = second.seconds ∧ first.nanos ≤ second.nanos :=
  Iff.rfl

instance (first second : Instant) : Decidable (first < second) :=
  decidable_of_iff _ lt_def.symm

instance (first second : Instant) : Decidable (first ≤ second) :=
  decidable_of_iff _ le_def.symm

/-- Every instant is at or before itself. -/
theorem le_refl (time : Instant) : time ≤ time :=
  le_def.2 (.inr ⟨rfl, Nat.le_refl _⟩)

/-- The order of instants is transitive. -/
theorem le_trans {first second third : Instant} (h : first ≤ second) (h' : second ≤ third) :
    first ≤ third := by
  rw [le_def] at *
  omega

/-- Two instants that are at or before each other are equal. -/
theorem le_antisymm {first second : Instant} (h : first ≤ second) (h' : second ≤ first) :
    first = second := by
  rw [le_def] at *
  exact ext_parts (by omega) (by omega)

/-- Of two instants one is at or before the other. -/
theorem le_total (first second : Instant) : first ≤ second ∨ second ≤ first := by
  rw [le_def, le_def]
  omega

/-- An instant is not before another exactly when the other is at or before it. -/
theorem not_lt {first second : Instant} : ¬ first < second ↔ second ≤ first := by
  rw [lt_def, le_def]
  omega

theorem le_of_lt {first second : Instant} (h : first < second) : first ≤ second := by
  rw [lt_def] at h
  rw [le_def]
  omega

theorem lt_of_lt_of_le {first second third : Instant} (h : first < second) (h' : second ≤ third) :
    first < third := by
  rw [lt_def] at *
  rw [le_def] at h'
  omega

theorem lt_irrefl (time : Instant) : ¬ time < time :=
  not_lt.2 (le_refl time)

theorem lt_or_eq_of_le {first second : Instant} (h : first ≤ second) :
    first < second ∨ first = second := by
  by_cases hlt : first < second
  · exact .inl hlt
  · exact .inr (le_antisymm h (not_lt.1 hlt))

/-- The later of two instants. -/
def max (first second : Instant) : Instant :=
  if first < second then second else first

/-- The latest of a list of instants, if there are any. -/
def latestOf? : List Instant → Option Instant
  | [] => none
  | time :: rest => some (rest.foldl max time)

/-- The seconds since midnight. -/
def secondOfDay (time : Instant) : Int :=
  time.seconds % 86400

/-- The nanoseconds from one instant to another. A leap second counts when it lies between the two
times of day, whatever the dates. -/
def since (later earlier : Instant) : Int :=
  let leap : Int :=
    if earlier.secondOfDay < later.secondOfDay ∧ nanosPerSecond ≤ earlier.nanos then 1
    else if later.secondOfDay < earlier.secondOfDay ∧ nanosPerSecond ≤ later.nanos then -1
    else 0
  (later.seconds - earlier.seconds + leap) * nanosPerSecond + (later.nanos - earlier.nanos)

/-- The instant this many nanoseconds after a second, if it is in range. -/
def ofNanosAfter? (seconds nanos : Int) : Option Instant :=
  ofParts? (seconds + nanos.fdiv nanosPerSecond) (nanos.fmod nanosPerSecond).toNat

/-- The instant a span later (earlier, if the span is negative), if it is in range. Within a leap
second a fraction of a second moves along that second; a move out of it counts from its end when
backwards and from its start when forwards. -/
def add? (time : Instant) (span : Int) : Option Instant :=
  if time.nanos < nanosPerSecond then ofNanosAfter? time.seconds (time.nanos + span)
  else
    let whole := span.tdiv nanosPerSecond
    let fraction := span.tmod nanosPerSecond
    if 0 < whole ∨ 0 < fraction ∧ 2 * nanosPerSecond ≤ time.nanos + fraction then
      ofNanosAfter? time.seconds (time.nanos - nanosPerSecond + span)
    else if whole < 0 then
      ofNanosAfter? (time.seconds + 1) (time.nanos - nanosPerSecond + span)
    else ofParts? time.seconds (time.nanos + fraction).toNat

/-- The instant a span later, or the latest one if that is out of range. -/
def addSaturating (time : Instant) (span : Int) : Instant :=
  (time.add? span).getD latest

/-- The instant a span earlier, or the earliest one if that is out of range. -/
def subSaturating (time : Instant) (span : Int) : Instant :=
  (time.add? (-span)).getD earliest

/-- The whole milliseconds since 1970, rounded down. -/
def millis (time : Instant) : Int :=
  time.seconds * 1000 + (time.nanos / nanosPerMilli : Nat)

/-- The instant this many milliseconds after the start of 1970, if it is in range. -/
def ofMillis? (millis : Int) : Option Instant :=
  ofParts? (millis.fdiv 1000) ((millis.fmod 1000).toNat * nanosPerMilli)

end Instant

/-- The span of a number of milliseconds. -/
def spanOfMillis (millis : Int) : Int :=
  millis * nanosPerMilli

/-- The whole milliseconds in a span, rounded towards zero. -/
def millisOfSpan (span : Int) : Int :=
  span.tdiv nanosPerMilli

end WindowJoin
