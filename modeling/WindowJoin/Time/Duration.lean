import WindowJoin.Time.Instant

/-!
# Durations

A duration is a number of whole seconds that takes 64 bits at most, and a number of nanoseconds past
them that is less than a second. `ofParts?` refuses parts out of range, `times?` refuses a product
out of range, and `timesSaturating` takes the longest duration in its place. Durations are ordered as
pairs, which is the order of their nanoseconds in all (`le_iff_to_nanos`).
-/

namespace WindowJoin

/-- A length of time, as whole seconds and nanoseconds past them. -/
structure Duration where
  seconds : Nat
  nanos : Nat
  seconds_lt : seconds < UInt64.size
  nanos_lt : nanos < nanosPerSecond
  deriving DecidableEq, Repr

namespace Duration

/-- The duration with these parts, if they are in range. -/
def ofParts? (seconds nanos : Nat) : Option Duration :=
  if h : seconds < UInt64.size ∧ nanos < nanosPerSecond then some ⟨seconds, nanos, h.1, h.2⟩
  else none

/-- The longest duration, a nanosecond short of 2⁶⁴ seconds. -/
def longest : Duration :=
  ⟨18446744073709551615, 999999999, by decide, by decide⟩

instance : LE Duration :=
  ⟨fun first second =>
    first.seconds < second.seconds ∨ first.seconds = second.seconds ∧ first.nanos ≤ second.nanos⟩

/-- Durations are ordered by their seconds, and within a second by their nanoseconds. -/
theorem le_def {first second : Duration} : first ≤ second ↔
    first.seconds < second.seconds ∨ first.seconds = second.seconds ∧ first.nanos ≤ second.nanos :=
  Iff.rfl

instance (first second : Duration) : Decidable (first ≤ second) :=
  decidable_of_iff _ le_def.symm

/-- The shorter of two durations. -/
instance : Min Duration := minOfLe

/-- A duration a number of times, if that is in range. The nanoseconds carry over into seconds. -/
def times? (duration : Duration) (factor : Nat) : Option Duration :=
  let nanos := duration.nanos * factor
  ofParts? (duration.seconds * factor + nanos / nanosPerSecond) (nanos % nanosPerSecond)

/-- A duration a number of times, or the longest one if that is out of range. -/
def timesSaturating (duration : Duration) (factor : Nat) : Duration :=
  (duration.times? factor).getD longest

/-- The duration of a number of milliseconds. -/
def ofMillis (millis : UInt64) : Duration where
  seconds := millis.toNat / 1000
  nanos := millis.toNat % 1000 * nanosPerMilli
  seconds_lt := Nat.lt_of_le_of_lt (Nat.div_le_self ..) millis.toNat_lt
  nanos_lt := Nat.mul_lt_mul_of_pos_right (Nat.mod_lt _ (by decide)) (by decide)

/-- The whole milliseconds in a duration. -/
def toMillis (duration : Duration) : Nat :=
  duration.seconds * 1000 + duration.nanos / nanosPerMilli

/-- The nanoseconds in a duration. -/
def toNanos (duration : Duration) : Nat :=
  duration.seconds * nanosPerSecond + duration.nanos

theorem of_millis_to_nanos (millis : UInt64) :
    (ofMillis millis).toNanos = millis.toNat * nanosPerMilli := by
  simp only [toNanos, ofMillis, nanosPerSecond, nanosPerMilli]
  omega

theorem le_iff_to_nanos {first second : Duration} :
    first ≤ second ↔ first.toNanos ≤ second.toNanos := by
  have hfirst := first.nanos_lt
  have hsecond := second.nanos_lt
  simp only [le_def, toNanos, nanosPerSecond] at *
  omega

theorem to_nanos_le_longest (duration : Duration) : duration.toNanos ≤ longest.toNanos := by
  have hseconds := duration.seconds_lt
  have hnanos := duration.nanos_lt
  simp only [toNanos, longest, nanosPerSecond, UInt64.size] at *
  omega

@[simp] theorem min_to_nanos (first second : Duration) :
    (min first second).toNanos = min first.toNanos second.toNanos := by
  show (if first ≤ second then first else second).toNanos = _
  split
  next h => exact (Nat.min_eq_left (le_iff_to_nanos.mp h)).symm
  next h => exact (Nat.min_eq_right (Nat.le_of_not_le (mt le_iff_to_nanos.mpr h))).symm

/-- A product is out of range exactly if it is longer than the longest duration, and is exact
otherwise. -/
theorem times_cases (duration : Duration) (factor : Nat) :
    (∃ product, duration.times? factor = some product ∧
      product.toNanos = duration.toNanos * factor) ∨
    duration.times? factor = none ∧ longest.toNanos < duration.toNanos * factor := by
  have hproduct : duration.toNanos * factor =
      duration.seconds * factor * nanosPerSecond + duration.nanos * factor := by
    rw [toNanos, Nat.add_mul, Nat.mul_right_comm]
  have hcarry : nanosPerSecond * (duration.nanos * factor / nanosPerSecond) +
      duration.nanos * factor % nanosPerSecond = duration.nanos * factor := Nat.div_add_mod _ _
  have hrest : duration.nanos * factor % nanosPerSecond < nanosPerSecond := Nat.mod_lt _ (by decide)
  rw [hproduct, times?, ofParts?]
  split
  next => exact .inl ⟨_, rfl, by simp only [toNanos, nanosPerSecond] at *; omega⟩
  next hrange =>
    refine .inr ⟨rfl, ?_⟩
    simp only [toNanos, longest, nanosPerSecond, UInt64.size] at *
    omega

@[simp] theorem times_saturating_to_nanos (duration : Duration) (factor : Nat) :
    (duration.timesSaturating factor).toNanos =
      min (duration.toNanos * factor) longest.toNanos := by
  rcases duration.times_cases factor with ⟨product, hsome, hexact⟩ | ⟨hnone, hover⟩
  · rw [timesSaturating, hsome, Option.getD_some, ← hexact]
    exact (Nat.min_eq_left product.to_nanos_le_longest).symm
  · rw [timesSaturating, hnone, Option.getD_none]
    exact (Nat.min_eq_right (Nat.le_of_lt hover)).symm

end Duration

end WindowJoin
