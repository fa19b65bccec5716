import WindowJoin.Billing.Machine
import WindowJoin.Config.Settings
import WindowJoin.Join.Machine
import WindowJoin.Merge.Machine
import WindowJoin.Pipeline.Checkpointer
import WindowJoin.Receiver.Machine
import WindowJoin.Resume

/-!
# Opening the streams of a pipeline

Before anything runs, the configuration is checked, both streams are looked up, and a receiver is
connected to every partition where its reading begins. Two streams that do not have the same number
of partitions are refused.
-/

namespace WindowJoin

namespace Pipeline

/-- What a pipeline is set up with. -/
structure Settings where
  config : Config
  receiverBackoff : BoundedBackoff
  storageBackoff : BoundedBackoff
  /-- Whether the events of joined batches are billed. -/
  billed : Bool

namespace Settings

/-- How checkpoints are stored. -/
def store (settings : Settings) : CheckpointStore :=
  ⟨settings.config.storageMaxAttempts.toUInt32, settings.storageBackoff⟩

/-- How the billing checkpoint is stored. -/
def billing (settings : Settings) : BillingRun.Rules :=
  ⟨settings.store, settings.config.billingBlobName⟩

/-- How the join checkpoint is stored. -/
def checkpointer (settings : Settings) : Checkpointer.Rules :=
  ⟨settings.store, settings.config.checkpointBlobName, settings.config.checkpointInterval⟩

/-- Reads the checkpoint that a run goes on from. An empty one counts as none. -/
def loadCheckpoint {σ : Type} (settings : Settings) (access : BlobAccess σ) (blobs : σ) :
    Retried σ (Option JoinCheckpoint) :=
  let loaded := settings.store.loadJoin access settings.config.checkpointBlobName blobs
  ⟨loaded.result.map fun checkpoint => if checkpoint.isEmpty then none else some checkpoint,
    loaded.store, loaded.delays⟩

end Settings

/-- One of the two streams of a pipeline. -/
inductive Role where
  | interactions
  | observations
  deriving DecidableEq, Repr

/-- The stream that has a role. -/
def Role.streamName (config : Config) : Role → String
  | interactions => config.interactionStream
  | observations => config.observationStream

/-- The part of a pipeline in front of the join that reads one stream: its receivers, one for each
partition, their sources, the merge once it runs, and what comes out of it. -/
structure Side where
  stream : String
  receivers : List Receiver
  slots : List MergeSlot
  merge : Option Merge.Control
  merged : Channel MessageBatch

/-- The partitions of a stream, of which there has to be at least one. -/
def partitionsOf (transport : Transport) (stream : String) : Except Failure (List String) :=
  match transport.partitions stream with
  | .error error => .error (.during (.listingPartitions stream) (.transport error))
  | .ok [] => .error (.noPartitions stream)
  | .ok partitions => .ok partitions

/-- Connects receivers to the partitions of a stream. -/
def connectAll (transport : Transport) (stream : String) (backoff : BoundedBackoff) :
    List (String × StartPosition) → Except Failure (List Receiver)
  | [] => .ok []
  | (partition, start) :: rest =>
    match Client.connect transport stream partition start with
    | .error error => .error (.during (.openingPartition stream partition) (.transport error))
    | .ok client => do .ok (.start client backoff :: (← connectAll transport stream backoff rest))

/-- A side whose receivers begin at these positions. -/
def openSide (settings : Settings) (transport : Transport) (stream : String)
    (starts : List (String × StartPosition)) : Except Failure Side := do
  .ok {
    stream
    receivers := ← connectAll transport stream settings.receiverBackoff starts
    slots := starts.map fun (partition, _) =>
      .new (.new partition settings.config.partitionQueueCapacity)
    merge := none
    merged := .new settings.config.mergeOutputCapacity }

/-- What opening gives: the settings of the merges and the join, and the two sides. -/
structure Opened where
  merge : MergeRules
  join : JoinRules
  interactions : Side
  observations : Side

/-- Checks the configuration and opens both streams, where a checkpoint says if there is one. -/
def openStreams (settings : Settings) (checkpoint : Option JoinCheckpoint)
    (transport : Transport) (wall : Instant) : Except Failure Opened := do
  let config := settings.config
  config.validate
  let merge ← config.mergeRules?
  let join ← config.joinRules?
  let interactions ← partitionsOf transport config.interactionStream
  let observations ← partitionsOf transport config.observationStream
  if interactions.length ≠ observations.length then
    .error (.partitionCountMismatch interactions.length observations.length)
  let fallback := config.warmStart.getD wall
  let observationTime := observationStart interactions checkpoint join.window fallback
  .ok {
    merge
    join
    interactions := ← openSide settings transport config.interactionStream
      (interactions.map fun partition => (partition, interactionStart checkpoint fallback partition))
    observations := ← openSide settings transport config.observationStream
      (observations.map fun partition => (partition, .atTime observationTime)) }

end Pipeline

end WindowJoin
