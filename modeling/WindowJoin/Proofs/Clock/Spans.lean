import WindowJoin.Proofs.Clock.Polling

/-!
# The spans that a clock computes with

Punctuation multiplies the slack by the number of idle periods, and that product has to stay in the
range of spans. `ObservationClock.computes_iff`: all events can be gone through exactly if the product
is in range for the longest span that lies between two instants. An instant that would lie behind the
latest one does no harm: it becomes the latest one (`ObservationClock.punctuate_reaches`).
-/

namespace WindowJoin

/-- The last instant there is, at the end of a leap second. -/
def Instant.final : Instant :=
  { Instant.latest with nanos := 1999999999, nanos_bound := by decide }

namespace ObservationClock

/-- The longest span for which a clock can have been idle. -/
def longestIdle : Int :=
  Instant.final.since Instant.earliest

/-- No two instants are further apart. -/
theorem since_le_longest (later earlier : Instant) : later.since earlier ≤ longestIdle := by
  have hlongest : longestIdle =
      (latestSecond - earliestSecond) * nanosPerSecond + (2 * nanosPerSecond - 1) := by decide
  have hlater := later.le_latest
  have hearlier := earlier.earliest_le
  have hnanos := later.nanos_bound
  rw [hlongest, Instant.since]
  split
  next hleap =>
    simp only [nanosPerSecond, latestSecond, earliestSecond, Int.cast_ofNat_Int] at *
    omega
  next =>
    split <;>
      simp only [nanosPerSecond, latestSecond, earliestSecond, Int.cast_ofNat_Int] at * <;> omega

/-- An idle span that is shorter than the timeout counts as one period. -/
theorem idle_periods_of_busy {rules : Punctuation} {idle : Int} (h : idle < rules.timeout) :
    idlePeriods rules idle = 1 := by
  have hmillis : millisOfSpan idle ≤ millisOfSpan rules.timeout :=
    Int.tdiv_le_tdiv (by decide) (Int.le_of_lt h)
  have hpositive : 0 < Max.max (millisOfSpan rules.timeout) 1 :=
    Int.lt_of_lt_of_le (by decide) (Int.le_max_right _ _)
  have hone := Int.tdiv_le_tdiv hpositive (Int.le_trans hmillis (Int.le_max_left _ 1))
  rw [Int.tdiv_self (Int.ne_of_gt hpositive)] at hone
  unfold idlePeriods maxPeriods
  dsimp only
  omega

variable {rules : Punctuation}

/-- With a slack that stays in range, punctuation goes through in every state. -/
theorem punctuate_computes (hslack : 0 ≤ rules.slack) (h : rules.addSlack = true →
      SpanInRange (rules.slack * idlePeriods rules longestIdle))
    (clock : ObservationClock) (now : Instant) : (clock.punctuate? rules now).isSome = true := by
  rw [punctuate_eq]
  split
  next => rfl
  next =>
    rw [Option.isSome_map]
    unfold target?
    split
    next latest hadds hlatest =>
      have hperiods := one_le_idle_periods rules (now.since clock.lastArrival)
      have hnonneg := Int.mul_nonneg hslack (Int.le_trans Int.one_nonneg hperiods)
      have hspan := Int.mul_le_mul_of_nonneg_left
        (idle_periods_mono rules (since_le_longest now clock.lastArrival)) hslack
      rw [if_pos (span_in_range_of_le hnonneg hspan (h hadds))]
      rfl
    next => rfl

/-- A clock can go through all events, whatever they are and whenever they come, exactly if the slack
of the longest idle span is in range. -/
theorem computes_iff (hslack : 0 ≤ rules.slack) (hrange : SpanInRange rules.slack) :
    (∀ start events, ((new start).run? rules events).isSome = true) ↔
      (rules.addSlack = true → SpanInRange (rules.slack * idlePeriods rules longestIdle)) := by
  constructor
  · intro hcomputes hadds
    by_cases hbusy : longestIdle < rules.timeout
    · rwa [idle_periods_of_busy hbusy, Int.mul_one]
    · -- One observation at the beginning of time, and a look at the clock at its end.
      let batch : MessageBatch := ⟨0, 0, "", .earliest, 0, []⟩
      have hrun := hcomputes .earliest [.observations .earliest batch, .silence .final]
      change (((new .earliest).observe rules .earliest batch).run? rules
        [.silence .final]).isSome = true at hrun
      rw [run_single] at hrun
      change (((new .earliest).observe rules .earliest batch).punctuate? rules
        .final).isSome = true at hrun
      rw [punctuate_eq] at hrun
      change (if longestIdle < rules.timeout then _ else Option.map _ _).isSome = true at hrun
      rw [if_neg hbusy, Option.isSome_map] at hrun
      by_contra hout
      unfold target? at hrun
      rw [hadds] at hrun
      change (if SpanInRange (rules.slack * idlePeriods rules longestIdle) then _
        else none).isSome = true at hrun
      rw [if_neg hout] at hrun
      cases hrun
  · intro h start events
    generalize new start = clock
    induction events generalizing clock with
    | nil => rfl
    | cons event rest ih =>
        have hstep : (event.moves? rules clock).isSome = true := by
          cases event with
          | interactions | observations | close => rfl
          | silence now => exact punctuate_computes hslack h clock now
        obtain ⟨next, hnext⟩ := Option.isSome_iff_exists.mp hstep
        show ((event.moves? rules clock).bind (·.run? rules rest)).isSome = true
        rw [hnext]
        exact ih next

/-- An idle clock is raised by the slack of its idle periods from the latest observation on, but not
behind the latest instant. -/
theorem punctuate_reaches (hslack : 0 ≤ rules.slack) (hadds : rules.addSlack = true)
    {clock next : ObservationClock} {now latest : Instant} (hlatest : clock.latestEvent = some latest)
    (hplain : latest.nanos < nanosPerSecond) (hidle : rules.timeout ≤ now.since clock.lastArrival)
    (hnext : clock.punctuate? rules now = some next) :
    ∃ reached, next = clock.raise reached ∧ reached.nanos < nanosPerSecond ∧
      reached.scale = min (latest.scale +
        rules.slack * idlePeriods rules (now.since clock.lastArrival)) Instant.latest.scale := by
  rw [punctuate_eq, if_neg (Int.not_lt.mpr hidle)] at hnext
  obtain ⟨reached, hreached, rfl⟩ := Option.map_eq_some_iff.mp hnext
  unfold target? at hreached
  rw [hadds, hlatest] at hreached
  obtain ⟨-, hreached⟩ := Option.ite_none_right_eq_some.mp hreached
  cases hreached
  have hnonneg := Int.mul_nonneg hslack (Int.le_trans Int.one_nonneg
    (one_le_idle_periods rules (now.since clock.lastArrival)))
  exact ⟨_, rfl, Instant.add_saturating_scale hplain hnonneg⟩

end ObservationClock

end WindowJoin
