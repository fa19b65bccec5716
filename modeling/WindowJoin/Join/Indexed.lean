import WindowJoin.Join.Batch
import WindowJoin.OrderedMap

/-!
# The join

A left outer join of interactions with observations over a window of time. Batches of interactions
are held in the order in which they came; each has a serial number, and serial numbers count up
without gaps, so that a serial number less the first one is a position. The index holds, for each
event id, the places of the open interactions with that id, oldest first. An observation goes to the
oldest, or comes out as an orphan if there is none.
-/

namespace WindowJoin

/-- Where an open interaction is: the serial number of its batch and its group there. -/
structure Place where
  serial : Nat
  group : Nat
  deriving DecidableEq, Repr

/-- An open batch with its serial number. -/
structure PendingBatch extends OpenBatch where
  serial : Nat
  deriving DecidableEq, Repr

/-- The places of the open interactions with each event id. -/
abbrev PlaceIndex := OrderedMap (List Place)

namespace PlaceIndex

/-- The places of an event id, oldest first. -/
def places (index : PlaceIndex) (eventId : String) : List Place :=
  (index.get? eventId).getD []

/-- Adds the newest place of an event id. -/
def add (index : PlaceIndex) (eventId : String) (place : Place) : PlaceIndex :=
  index.insert eventId (index.places eventId ++ [place])

/-- Takes a place of an event id away. -/
def remove (index : PlaceIndex) (eventId : String) (place : Place) : PlaceIndex :=
  match (index.places eventId).filter (· ≠ place) with
  | [] => index.erase eventId
  | rest => index.insert eventId rest

/-- Adds the places of the messages of a batch, from a group on. -/
def addMessages (serial : Nat) : Nat → List Message → PlaceIndex → PlaceIndex
  | _, [], index => index
  | group, message :: rest, index =>
    addMessages serial (group + 1) rest
      (if message.isDictionary then index else index.add message.eventId ⟨serial, group⟩)

/-- Takes the places of the groups of a batch away, from a group on. -/
def removeGroups (serial : Nat) : Nat → List (List Message) → PlaceIndex → PlaceIndex
  | _, [], index => index
  | group, messages :: rest, index =>
    removeGroups serial (group + 1) rest
      (match messages with
        | [] => index
        | first :: _ => index.remove first.eventId ⟨serial, group⟩)

end PlaceIndex

/-- The state of a join. -/
structure Join where
  clock : ObservationClock
  /-- The open batches, oldest first. -/
  pending : List PendingBatch
  nextSerial : Nat
  index : PlaceIndex
  /-- The latest enqueued time of a batch of interactions. -/
  latestInteraction : Option Instant
  deriving DecidableEq

namespace Join

/-- A join before its first batch. -/
def new (now : Instant) : Join where
  clock := .new now
  pending := []
  nextSerial := 0
  index := .empty
  latestInteraction := none

/-- Takes a batch of interactions in. -/
def addInteractions (rules : JoinRules) (join : Join) (batch : MessageBatch) : Join where
  clock := join.clock
  pending := join.pending ++ [⟨.ofInteractions rules batch, join.nextSerial⟩]
  nextSerial := join.nextSerial + 1
  index := join.index.addMessages join.nextSerial 0 batch.messages
  latestInteraction := some (join.latestInteraction.elim batch.enqueuedTime (·.max batch.enqueuedTime))

/-- Whether a batch of interactions as late as a batch of observations has come in. -/
def caughtUp (join : Join) (observations : MessageBatch) : Bool :=
  join.latestInteraction.any (observations.enqueuedTime ≤ ·)

/-- Splits off the batches in front whose deadline is before the watermark. -/
def flushPending (watermark : Instant) : List PendingBatch → PlaceIndex →
    List JoinOutput × List PendingBatch × PlaceIndex
  | [], index => ([], [], index)
  | entry :: rest, index =>
    if entry.deadline < watermark then
      let (out, left, index) :=
        flushPending watermark rest (index.removeGroups entry.serial 0 entry.batch.groups)
      (.joined entry.batch :: out, left, index)
    else ([], entry :: rest, index)

/-- Gives the batches out, in the order in which they came, that the watermark of a clock has
passed. -/
def flush (join : Join) (clock : ObservationClock) : Join × List JoinOutput :=
  let (out, pending, index) := flushPending clock.watermark join.pending join.index
  ({ join with clock, pending, index }, out)

/-- Adds an observation to the oldest open interaction with its event id; none if there is none. -/
def attach? (join : Join) (message : Message) : Option Join :=
  match join.index.places message.eventId with
  | [] => none
  | place :: _ =>
    let first := join.pending.head?.elim place.serial (·.serial)
    some { join with
      pending := join.pending.modify (place.serial - first) fun entry =>
        { entry with toOpenBatch := entry.toOpenBatch.attach place.group message } }

/-- Adds the observations of a batch, and gives those out that have no open interaction. -/
def attachAll (batch : MessageBatch) : List Message → Join → Join × List JoinOutput
  | [], join => (join, [])
  | message :: rest, join =>
    if message.isDictionary then attachAll batch rest join
    else
      match join.attach? message with
      | some attached => attachAll batch rest attached
      | none =>
        let (final, out) := attachAll batch rest join
        (final, batch.orphan message :: out)

/-- Joins a batch of observations: the watermark moves, what it passes comes out, and then each
observation is added or comes out as an orphan. -/
def addObservations (rules : JoinRules) (join : Join) (now : Instant) (batch : MessageBatch) :
    Join × List JoinOutput :=
  let (flushed, closed) := join.flush (join.clock.observe rules.punctuation now batch)
  let (attached, orphans) := attachAll batch batch.messages flushed
  (attached, closed ++ orphans)

/-- Moves the watermark without an observation; none if that leaves the range of spans. -/
def punctuate? (rules : JoinRules) (join : Join) (now : Instant) :
    Option (Join × List JoinOutput) :=
  (join.clock.punctuate? rules.punctuation now).map join.flush

/-- Closes every window at the end of the observations. -/
def close (join : Join) : Join × List JoinOutput :=
  join.flush join.clock.close

/-- The join after an event, with what comes out; none if punctuation leaves the range of spans. -/
def step? (rules : JoinRules) (join : Join) : JoinEvent → Option (Join × List JoinOutput)
  | .interactions batch => some (join.addInteractions rules batch, [])
  | .observations now batch => some (join.addObservations rules now batch)
  | .silence now => join.punctuate? rules now
  | .close => some join.close

/-- The join after a list of events, with all that comes out. -/
def run? (rules : JoinRules) (join : Join) : List JoinEvent → Option (Join × List JoinOutput)
  | [] => some (join, [])
  | event :: rest => do
    let (next, out) ← join.step? rules event
    let (final, later) ← next.run? rules rest
    some (final, out ++ later)

end Join

end WindowJoin
