import WindowJoin.Time.Instant

/-!
# Messages and batches

A message is one event. A transport delivers messages in batches, each from one partition of a
stream. The join turns a batch of interactions into a joined batch: one group for every message of
the batch, which starts with that message and goes on with the observations that belong to it. An
observation without an interaction is an orphan.
-/

namespace WindowJoin

/-- The kinds of messages. -/
inductive PayloadType where
  | interaction
  | multiStepInteraction
  | observation
  | episodeObservation
  | dictionary
  deriving DecidableEq, Repr

namespace PayloadType

/-- The byte that stands for a kind of message. -/
def tag : PayloadType → UInt8
  | interaction => 1
  | multiStepInteraction => 2
  | observation => 3
  | episodeObservation => 4
  | dictionary => 5

/-- The kind of message that a byte stands for. -/
def ofTag? (tag : UInt8) : Option PayloadType :=
  if tag = 1 then some interaction
  else if tag = 2 then some multiStepInteraction
  else if tag = 3 then some observation
  else if tag = 4 then some episodeObservation
  else if tag = 5 then some dictionary
  else none

/-- The tag of a kind stands for it, and no other tag does. -/
theorem of_tag_eq_some_iff {tag : UInt8} {type : PayloadType} :
    ofTag? tag = some type ↔ tag = type.tag := by
  constructor
  · unfold ofTag?
    repeat' split
    all_goals
      intro h
      cases h
      try assumption
  · rintro rfl
    cases type <;> decide

/-- Whether a message of this kind reports on an interaction. -/
def isObservation : PayloadType → Bool
  | observation | episodeObservation => true
  | _ => false

end PayloadType

/-- The event id of messages that carry a dictionary, whatever their kind. -/
def dictionaryEventId : String := "__dictionary__"

/-- One event, with the time at which the stream took it in and, if its sender gave one, the time
at which it was sent. -/
structure Message where
  appId : String
  eventId : String
  payloadType : PayloadType
  enqueuedTime : Instant
  clientTime : Option Instant
  payload : List UInt8
  deriving DecidableEq, Repr

namespace Message

/-- A message that carries a dictionary takes no part in the join. -/
def isDictionary (message : Message) : Bool :=
  message.eventId = dictionaryEventId || message.payloadType = .dictionary

/-- The time of an event: its client time if that counts and is given, else its enqueued time. -/
def eventTime (useClientTime : Bool) (message : Message) : Instant :=
  if useClientTime then message.clientTime.getD message.enqueuedTime else message.enqueuedTime

end Message

/-- Messages from one partition, with their position in it. The event count includes events that
were skipped. -/
structure MessageBatch where
  offset : Int64
  sequenceNumber : Int64
  partition : String
  enqueuedTime : Instant
  eventCount : Nat
  messages : List Message
  deriving DecidableEq, Repr

/-- The groups that a batch of interactions has become, at the position of that batch. -/
structure JoinedBatch where
  offset : Int64
  sequenceNumber : Int64
  partition : String
  enqueuedTime : Instant
  eventCount : Nat
  groups : List (List Message)
  deriving DecidableEq, Repr

/-- The number of observations in all groups of a joined batch. -/
def JoinedBatch.observationCount (batch : JoinedBatch) : Nat :=
  batch.groups.flatten.countP (·.payloadType.isObservation)

/-- An observation without an interaction, at the position of its own batch. -/
structure OrphanObservation where
  partition : String
  sequenceNumber : Int64
  offset : Int64
  message : Message
  deriving DecidableEq, Repr

/-- What comes out of the join. -/
inductive JoinOutput where
  | joined (batch : JoinedBatch)
  | orphan (observation : OrphanObservation)
  deriving DecidableEq, Repr

/-- What billing needs to know of a joined batch. -/
structure BillingRecord where
  partition : String
  sequenceNumber : Int64
  eventCount : Nat
  deriving DecidableEq, Repr

/-- The billing record of a joined batch. -/
def JoinedBatch.billingRecord (batch : JoinedBatch) : BillingRecord :=
  ⟨batch.partition, batch.sequenceNumber, batch.eventCount⟩

end WindowJoin
