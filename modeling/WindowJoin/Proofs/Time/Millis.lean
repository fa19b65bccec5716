import WindowJoin.Time.Instant

/-!
# Instants as counts of milliseconds

The instant of a count of milliseconds exists where the count lies between those of the first and the
last instant (`of_millis_in_range`), and it has that count (`millis_of_millis`). Only in a leap second
at the end of time does an instant have a count of which there is none.
-/

namespace WindowJoin.Instant

/-- The count of milliseconds of an instant is that of an instant at a whole millisecond. -/
def MillisInRange (time : Instant) : Prop :=
  earliest.millis ≤ time.millis ∧ time.millis ≤ latest.millis
  deriving Decidable

/-- The parts of a count of milliseconds, by the division that rounds down. -/
theorem of_millis_parts (millis : Int) :
    ofMillis? millis = ofParts? (millis / 1000) ((millis % 1000).toNat * nanosPerMilli) := by
  rw [ofMillis?, Int.fdiv_eq_ediv_of_nonneg _ (by decide), Int.fmod_eq_emod_of_nonneg _ (by decide)]

/-- The instant of a count of milliseconds exists, if the count is in range. -/
theorem of_millis_in_range {time : Instant} (h : time.MillisInRange) :
    ∃ kept, ofMillis? time.millis = some kept := by
  have hearliest : earliest.millis = earliestSecond * 1000 := rfl
  have hlatest : latest.millis = latestSecond * 1000 + 999 := rfl
  obtain ⟨hlow, hhigh⟩ := h
  rw [hearliest] at hlow
  rw [hlatest] at hhigh
  rw [of_millis_parts]
  refine ⟨_, dif_pos ⟨⟨by omega, by omega⟩, .inl ?_⟩⟩
  unfold nanosPerMilli nanosPerSecond
  omega

/-- The instant of a count of milliseconds has that count. -/
theorem millis_of_millis {millis : Int} {time : Instant} (h : ofMillis? millis = some time) :
    time.millis = millis := by
  rw [of_millis_parts] at h
  obtain ⟨hseconds, hnanos⟩ := parts_of_of_parts h
  unfold nanosPerMilli at hnanos
  unfold Instant.millis nanosPerMilli
  omega

/-- A count of milliseconds of an instant is a number of 64 bits. -/
theorem millis_bounds (time : Instant) :
    -0x8000000000000000 < time.millis ∧ time.millis < 0x8000000000000000 := by
  have hearliest := time.earliest_le
  have hlatest := time.le_latest
  have hnanos := time.nanos_bound
  unfold earliestSecond at hearliest
  unfold latestSecond at hlatest
  unfold nanosPerSecond at hnanos
  unfold Instant.millis nanosPerMilli
  omega

end WindowJoin.Instant
