import WindowJoin.ObservationClock

/-!
# Open batches

A batch of interactions stays open until the watermark of the observations passes its deadline: the
latest time of its interactions plus the window. While it is open, observations are added to its
groups.
-/

namespace WindowJoin

/-- The settings of a join. -/
structure JoinRules where
  /-- The span after an interaction in which observations still belong to it. -/
  window : Int
  punctuation : Punctuation
  /-- The milliseconds between two looks at the clock without an observation. -/
  punctuationInterval : Nat
  /-- The milliseconds that an observation waits for a silent stream of interactions. -/
  interactionWait : Nat
  deriving DecidableEq, Repr

/-- A batch of interactions whose window may still be open. -/
structure OpenBatch where
  batch : JoinedBatch
  deadline : Instant
  deriving DecidableEq, Repr

/-- The last time at which observations belong to a batch of interactions. -/
def JoinRules.deadline (rules : JoinRules) (batch : MessageBatch) : Instant :=
  let times := (batch.messages.filter (!·.isDictionary)).map
    (·.eventTime rules.punctuation.useClientTime)
  ((Instant.latestOf? times).getD batch.enqueuedTime).addSaturating rules.window

/-- A batch of interactions before any observation, with one group for each message. -/
def MessageBatch.toJoined (batch : MessageBatch) : JoinedBatch where
  offset := batch.offset
  sequenceNumber := batch.sequenceNumber
  partition := batch.partition
  enqueuedTime := batch.enqueuedTime
  eventCount := batch.eventCount
  groups := batch.messages.map ([·])

/-- A batch of interactions as it comes in. -/
def OpenBatch.ofInteractions (rules : JoinRules) (batch : MessageBatch) : OpenBatch :=
  ⟨batch.toJoined, rules.deadline batch⟩

/-- A batch with a message added to one of its groups. -/
def OpenBatch.attach (entry : OpenBatch) (group : Nat) (message : Message) : OpenBatch :=
  { entry with
    batch := { entry.batch with groups := entry.batch.groups.modify group (· ++ [message]) } }

/-- A message of an observation batch that belongs to no open interaction. -/
def MessageBatch.orphan (batch : MessageBatch) (message : Message) : JoinOutput :=
  .orphan ⟨batch.partition, batch.sequenceNumber, batch.offset, message⟩

/-- What happens to a join, with the wall clock's time where it counts. -/
inductive JoinEvent where
  /-- A batch of interactions comes in. -/
  | interactions (batch : MessageBatch)
  /-- A batch of observations is joined. -/
  | observations (now : Instant) (batch : MessageBatch)
  /-- No observation is at hand. -/
  | silence (now : Instant)
  /-- The observations have ended. -/
  | close
  deriving DecidableEq, Repr

end WindowJoin
