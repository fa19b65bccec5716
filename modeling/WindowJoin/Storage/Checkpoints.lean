import WindowJoin.Checkpoint
import WindowJoin.Storage.Blobs
import WindowJoin.Storage.Retry

/-!
# Stored checkpoints

A checkpoint is stored as one blob, which every write replaces. A blob that is missing, and one that
is not a checkpoint, mean a fresh start. Failures that pass are met by trying again.
-/

namespace WindowJoin

/-- How checkpoints are stored: the number of attempts and the waits between them, which start over
with every operation. -/
structure CheckpointStore where
  maxAttempts : UInt32
  backoff : BoundedBackoff
  deriving DecidableEq, Repr

namespace CheckpointStore

variable {σ : Type}

/-- The checkpoint in a blob, or an empty one if there is none. -/
def checkpointIn {α : Type} (parse : List UInt8 → Except Json.Fault (OrderedMap α)) :
    Option (List UInt8) → OrderedMap α
  | none => .empty
  | some bytes =>
    match parse bytes with
    | .ok checkpoint => checkpoint
    | .error _ => .empty

/-- Reads a checkpoint. -/
def load {α : Type} (settings : CheckpointStore) (access : BlobAccess σ)
    (parse : List UInt8 → Except Json.Fault (OrderedMap α)) (name : String) (store : σ) :
    Retried σ (OrderedMap α) :=
  let read := retry settings.maxAttempts settings.backoff (access.read name) store
  ⟨read.result.map (checkpointIn parse), read.store, read.delays⟩

/-- Reads the join checkpoint. -/
def loadJoin (settings : CheckpointStore) (access : BlobAccess σ) (name : String) (store : σ) :
    Retried σ JoinCheckpoint :=
  settings.load access JoinCheckpoint.ofJson name store

/-- Reads the billing checkpoint. -/
def loadBilling (settings : CheckpointStore) (access : BlobAccess σ) (name : String) (store : σ) :
    Retried σ BillingCheckpoint :=
  settings.load access BillingCheckpoint.ofJson name store

/-- Writes a document. -/
def save (settings : CheckpointStore) (access : BlobAccess σ) (name : String)
    (document : List UInt8) (store : σ) : Retried σ Unit :=
  retry settings.maxAttempts settings.backoff (access.write name document) store

/-- Writes the join checkpoint. -/
def saveJoin (settings : CheckpointStore) (access : BlobAccess σ) (name : String)
    (checkpoint : JoinCheckpoint) (store : σ) : Retried σ Unit :=
  settings.save access name checkpoint.toJson store

/-- Writes the billing checkpoint. -/
def saveBilling (settings : CheckpointStore) (access : BlobAccess σ) (name : String)
    (checkpoint : BillingCheckpoint) (store : σ) : Retried σ Unit :=
  settings.save access name checkpoint.toJson store

end CheckpointStore

/-- A storage error that came up during an activity. -/
def Activity.storageFailure (activity : Activity) (error : StorageError) : Failure :=
  .during activity (.storage error)

end WindowJoin
