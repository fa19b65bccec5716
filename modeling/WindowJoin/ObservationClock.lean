import WindowJoin.Message

/-!
# The clock of the observation stream

A watermark is a time below which no more observations are expected. It is the latest time of an
observation so far, until the stream falls idle: then punctuation moves it on, by the slack for
every whole timeout without an observation, or to the slack before the present. The end of the
stream moves it to the latest time. A watermark never moves back (`le_raise`, `le_observe`,
`le_punctuate`, `le_close`).
-/

namespace WindowJoin

/-- How the watermark moves while the observations are idle. -/
structure Punctuation where
  /-- The span without an observation after which the watermark moves by itself. -/
  timeout : Int
  /-- The span that punctuation moves by, or stays behind the present. -/
  slack : Int
  /-- Whether punctuation starts from the last observation, and not from the present. -/
  addSlack : Bool
  /-- Whether the client time of a message, if it has one, is its time. -/
  useClientTime : Bool
  deriving DecidableEq, Repr

/-- The watermark of the observations and what moves it: their latest time and the last moment at
which one came in. -/
structure ObservationClock where
  watermark : Instant
  latestEvent : Option Instant
  lastArrival : Instant
  deriving DecidableEq, Repr

namespace ObservationClock

/-- The clock before the first observation. -/
def new (now : Instant) : ObservationClock :=
  ⟨Instant.earliest, none, now⟩

/-- Moves the watermark up to a candidate, never down. -/
def raise (clock : ObservationClock) (candidate : Instant) : ObservationClock :=
  { clock with watermark := clock.watermark.max candidate }

/-- The time of a batch: the latest of its messages, or its own if it has none. -/
def timeFor (rules : Punctuation) (batch : MessageBatch) : Instant :=
  (Instant.latestOf? (batch.messages.map (·.eventTime rules.useClientTime))).getD batch.enqueuedTime

/-- The clock after a batch of observations. -/
def observe (rules : Punctuation) (clock : ObservationClock) (now : Instant)
    (batch : MessageBatch) : ObservationClock :=
  let time := timeFor rules batch
  let latest := clock.latestEvent.elim time (·.max time)
  { clock with latestEvent := some latest, lastArrival := now }.raise latest

/-- The largest number of periods that punctuation counts. -/
def maxPeriods : Int := 2147483647

/-- The number of whole timeouts in an idle span, at least one. -/
def idlePeriods (rules : Punctuation) (idle : Int) : Int :=
  let periods := (millisOfSpan idle).tdiv (Max.max (millisOfSpan rules.timeout) 1)
  Min.min (Max.max periods 1) maxPeriods

/-- Whether a span can be computed with: its seconds, rounded down, lie strictly between the ends of
the 64-bit integers. -/
def SpanInRange (span : Int) : Prop :=
  -0x8000000000000000 < span.fdiv nanosPerSecond ∧ span.fdiv nanosPerSecond < 0x7FFFFFFFFFFFFFFF

instance (span : Int) : Decidable (SpanInRange span) :=
  inferInstanceAs (Decidable (_ ∧ _))

/-- The clock when no observation is at hand; none if the slack of all idle periods together cannot
be computed with. -/
def punctuate? (rules : Punctuation) (clock : ObservationClock) (now : Instant) :
    Option ObservationClock :=
  let idle := now.since clock.lastArrival
  if idle < rules.timeout then some clock
  else
    match rules.addSlack, clock.latestEvent with
    | true, some latest =>
      let span := rules.slack * idlePeriods rules idle
      if SpanInRange span then some (clock.raise (latest.addSaturating span)) else none
    | _, _ => some (clock.raise (now.subSaturating rules.slack))

/-- The clock at the end of the observations. -/
def close (clock : ObservationClock) : ObservationClock :=
  clock.raise Instant.latest

/-- An instant is at or before the later of itself and another. -/
theorem le_max (first second : Instant) : first ≤ first.max second := by
  unfold Instant.max
  split
  next h => exact Instant.le_def.2 (by rw [Instant.lt_def] at h; omega)
  next => exact Instant.le_refl _

/-- Raising a watermark does not lower it. -/
theorem le_raise (clock : ObservationClock) (candidate : Instant) :
    clock.watermark ≤ (clock.raise candidate).watermark :=
  le_max _ _

/-- An observation does not lower the watermark. -/
theorem le_observe (rules : Punctuation) (clock : ObservationClock) (now : Instant)
    (batch : MessageBatch) : clock.watermark ≤ (clock.observe rules now batch).watermark :=
  le_max _ _

/-- Punctuation does not lower the watermark. -/
theorem le_punctuate {rules : Punctuation} {clock next : ObservationClock} {now : Instant}
    (h : clock.punctuate? rules now = some next) : clock.watermark ≤ next.watermark := by
  simp only [punctuate?] at h
  split at h
  · cases h
    exact Instant.le_refl _
  · split at h
    · split at h
      · cases h
        exact le_raise _ _
      · cases h
    · cases h
      exact le_raise _ _

/-- The end of the observations does not lower the watermark. -/
theorem le_close (clock : ObservationClock) : clock.watermark ≤ clock.close.watermark :=
  le_max _ _

end ObservationClock

end WindowJoin
