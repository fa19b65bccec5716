import WindowJoin.Simulation.Basic
import WindowJoin.Storage.Checkpoints
import WindowJoin.Storage.Directory

/-!
# A store under single operations

Blobs and checkpoints are written to a store and read back, one operation after another. The store is
one of three kinds; blobs in memory are at hand beside it.
-/

namespace WindowJoin

/-- The kinds of stores. -/
inductive StoreKind where
  | memory
  | directory
  /-- A table, which may be lost when it is opened again. -/
  | table (lasting : Bool)
  deriving DecidableEq, Repr

/-- A store of each kind. -/
structure Stores where
  memory : MemoryBlobs
  directory : Directory
  table : BlobTable

namespace Stores

/-- Stores without blobs. -/
def empty : Stores :=
  ⟨.empty, .empty, .empty⟩

/-- How the store of a kind is read and written. -/
def access : StoreKind → BlobAccess Stores
  | .memory => MemoryBlobs.access.within (·.memory) fun memory stores => { stores with memory }
  | .directory =>
    Directory.access.within (·.directory) fun directory stores => { stores with directory }
  | .table _ => BlobTable.access.within (·.table) fun table stores => { stores with table }

/-- The stores after that of a kind has been opened again. -/
def reopen (stores : Stores) : StoreKind → Stores
  | .table false => { stores with table := .empty }
  | _ => stores

end Stores

/-- What is done to a store. -/
inductive StoreAction where
  | read (name : String)
  | write (name : String) (data : List UInt8)
  | loadJoin (name : String)
  | loadBilling (name : String)
  | saveJoin (name : String) (checkpoint : JoinCheckpoint)
  | saveBilling (name : String) (checkpoint : BillingCheckpoint)
  | injectReads (failures : List StorageError)
  | injectWrites (failures : List StorageError)
  /-- Sets a blob in memory. -/
  | put (name : String) (data : List UInt8)
  /-- Looks at a blob in memory. -/
  | get (name : String)
  /-- Counts the writes in memory. -/
  | countWrites
  | reopen

/-- What an operation answers. -/
inductive StoreAnswer where
  | nothing
  | written
  | blob (data : Option (List UInt8))
  | join (checkpoint : JoinCheckpoint)
  | billing (checkpoint : BillingCheckpoint)
  | count (writes : Nat)

/-- The stores, in front of which reads may fail. -/
abbrev StoreTrial := Guarded Stores

namespace StoreTrial

/-- Stores at the beginning. -/
def start : StoreTrial :=
  ⟨.empty, []⟩

/-- What operations with all their attempts come to: the time they take, their result, and the
stores after them. -/
def retried {α : Type} (activity : Activity) (answer : α → StoreAnswer)
    (run : Retried StoreTrial α) : Nat × Except Failure StoreAnswer × StoreTrial :=
  (run.elapsed, (run.result.map answer).mapError activity.storageFailure, run.store)

/-- Takes an action on a store of a kind. Gives the time it takes, its answer, and the stores. -/
def perform (settings : CheckpointStore) (kind : StoreKind) (trial : StoreTrial) :
    StoreAction → Nat × Except Failure StoreAnswer × StoreTrial
  | .read name =>
    let (result, trial) := access.read name trial
    (0, (result.map .blob).mapError .storage, trial)
  | .write name data =>
    let (result, trial) := access.write name data trial
    (0, (result.map fun _ => .written).mapError .storage, trial)
  | .loadJoin name => retried .readingJoinCheckpoint .join (settings.loadJoin access name trial)
  | .loadBilling name =>
    retried .readingBillingCheckpoint .billing (settings.loadBilling access name trial)
  | .saveJoin name checkpoint =>
    retried .writingJoinCheckpoint (fun _ => .written)
      (settings.saveJoin access name checkpoint trial)
  | .saveBilling name checkpoint =>
    retried .writingBillingCheckpoint (fun _ => .written)
      (settings.saveBilling access name checkpoint trial)
  | .injectReads failures => (0, .ok .nothing, trial.injectReads failures)
  | .injectWrites failures => changed (trial.store.memory.injectWrites failures)
  | .put name data => changed (trial.store.memory.put name data)
  | .get name => (0, .ok (.blob (trial.store.memory.get? name)), trial)
  | .countWrites => (0, .ok (.count trial.store.memory.writes), trial)
  | .reopen => (0, .ok .nothing, ⟨trial.store.reopen kind, []⟩)
where
  access : BlobAccess StoreTrial := Guarded.access (Stores.access kind)
  changed (memory : MemoryBlobs) : Nat × Except Failure StoreAnswer × StoreTrial :=
    (0, .ok .nothing, { trial with store.memory := memory })

end StoreTrial

end WindowJoin
