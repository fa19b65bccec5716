import WindowJoin.Channel
import WindowJoin.Message

/-!
# The batches of a partition on their way to a merge

A receiver pushes the batches of its partition into a bounded channel, and a merge takes them out,
one at a time, through a slot for the batch at the head. The receiver also shows whether it receives
or waits after an error. `beginWait` and `continueWait` are the two halves of a bounded wait for a
batch.
-/

namespace WindowJoin

/-- What the receiver of a partition is doing. -/
inductive ReceiverStatus where
  | receiving
  | backingOff
  deriving DecidableEq, Repr

/-- The batches of a partition between its receiver and its merge. -/
structure PartitionSource where
  partition : String
  channel : Channel MessageBatch
  /-- A batch that has been taken off the channel and not popped yet. -/
  head : Option MessageBatch
  /-- Whether the merge has met the end of the channel. -/
  exhausted : Bool
  status : ReceiverStatus
  deriving DecidableEq, Repr

namespace PartitionSource

/-- A source without batches. Its channel has room for at least one. -/
def new (partition : String) (capacity : Nat) : PartitionSource :=
  ⟨partition, .new (max capacity 1), none, false, .receiving⟩

/-- Pushes a batch into the channel. -/
def push (source : PartitionSource) (batch : MessageBatch) : Sending MessageBatch :=
  source.channel.send batch

/-- The source after its receiver has gone. -/
def dropWriter (source : PartitionSource) : PartitionSource :=
  { source with channel := source.channel.dropSender }

/-- The source after its merge has gone. -/
def dropReader (source : PartitionSource) : PartitionSource :=
  { source with channel := source.channel.dropReceiver, head := none }

/-- Moves the next batch to the head, if the head is free and there is a batch. -/
def fill (source : PartitionSource) : PartitionSource :=
  if source.head.isSome || source.exhausted then source
  else
    match source.channel.receive with
    | .item batch channel => { source with head := some batch, channel }
    | .ended => { source with exhausted := true }
    | .empty => source

/-- Looks at the next batch, which stays. -/
def peek (source : PartitionSource) : Option MessageBatch × PartitionSource :=
  let filled := source.fill
  (filled.head, filled)

/-- Takes the batch at the head of a source that has been filled. -/
def pop (source : PartitionSource) : Option MessageBatch × PartitionSource :=
  let filled := source.fill
  (filled.head, { filled with head := none })

/-- Whether the receiver has gone and every batch was popped. -/
def isDrained (source : PartitionSource) : Bool :=
  let filled := source.fill
  filled.head.isNone && filled.exhausted

/-- Begins to wait for a batch. The wait is over at once if there is one, or if there will be
none. -/
def beginWait (source : PartitionSource) : Option Bool × PartitionSource :=
  let filled := source.fill
  if filled.head.isSome then (some true, filled)
  else if filled.exhausted then (some false, filled)
  else (none, filled)

/-- Goes on with a wait: a cancellation ends it before a batch does, and a batch before the
deadline. -/
def continueWait (source : PartitionSource) (cancelled : Bool) (now deadline : Nat) :
    Option Bool × PartitionSource :=
  if cancelled then (some false, source)
  else
    match source.beginWait with
    | (some ready, filled) => (some ready, filled)
    | (none, filled) => (if deadline ≤ now then some false else none, filled)

end PartitionSource

end WindowJoin
