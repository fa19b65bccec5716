import WindowJoin.Pipeline.Opening
import WindowJoin.Proofs.Checkpoint.RoundTrip
import WindowJoin.Proofs.Storage.Faithful

/-!
# Checkpoints in a store

A checkpoint that has been saved is what the next load gives, as long as nothing else is written to
its blob (`saved_checkpoints_load`). The two checkpoints of a pipeline lie in one store. `Stored`
follows the store through the attempts to save either of them, in any order, with what was last saved
of each: under two names each load gives what was last saved of its own kind (`loads_last_saved`), and
under one name it does not (`shared_blob_loses_billing`).
-/

namespace WindowJoin

variable {σ : Type} {access : BlobAccess σ}

/-! ## One checkpoint -/

/-- A store, and what was last saved of each checkpoint of a pipeline. -/
structure Stored (σ : Type) where
  store : σ
  join : JoinCheckpoint
  billing : BillingCheckpoint

namespace Stored

variable {settings : Pipeline.Settings} {blob : String → σ → Option (List UInt8)}
  {stored : Stored σ}

/-- What may happen to a store next: an attempt to save a checkpoint, which goes through or not, a read,
or a change of the store that leaves its blobs as they are. -/
inductive Step (settings : Pipeline.Settings) (access : BlobAccess σ)
    (blob : String → σ → Option (List UInt8)) (stored : Stored σ) : Stored σ → Prop where
  | join {checkpoint : JoinCheckpoint} :
      (access.write settings.config.checkpointBlobName checkpoint.toJson stored.store).1 = .ok () →
      Step settings access blob stored { stored with
        store :=
          (access.write settings.config.checkpointBlobName checkpoint.toJson stored.store).2
        join := checkpoint }
  | joinFailed {checkpoint : JoinCheckpoint} {error : StorageError} :
      (access.write settings.config.checkpointBlobName checkpoint.toJson stored.store).1 =
        .error error →
      Step settings access blob stored { stored with
        store :=
          (access.write settings.config.checkpointBlobName checkpoint.toJson stored.store).2 }
  | billing {checkpoint : BillingCheckpoint} :
      (access.write settings.config.billingBlobName checkpoint.toJson stored.store).1 = .ok () →
      Step settings access blob stored { stored with
        store := (access.write settings.config.billingBlobName checkpoint.toJson stored.store).2
        billing := checkpoint }
  | billingFailed {checkpoint : BillingCheckpoint} {error : StorageError} :
      (access.write settings.config.billingBlobName checkpoint.toJson stored.store).1 =
        .error error →
      Step settings access blob stored { stored with
        store := (access.write settings.config.billingBlobName checkpoint.toJson stored.store).2 }
  | read (name : String) :
      Step settings access blob stored { stored with store := (access.read name stored.store).2 }
  | outside (store : σ) : (∀ name, blob name store = blob name stored.store) →
      Step settings access blob stored { stored with store }

/-- A store at the beginning, where what its blobs hold counts as saved. -/
def begin (settings : Pipeline.Settings) (blob : String → σ → Option (List UInt8)) (store : σ) :
    Stored σ where
  store
  join := CheckpointStore.checkpointIn JoinCheckpoint.ofJson
    (blob settings.config.checkpointBlobName store)
  billing := CheckpointStore.checkpointIn BillingCheckpoint.ofJson
    (blob settings.config.billingBlobName store)

/-- The stores that come about. -/
inductive Reachable (settings : Pipeline.Settings) (access : BlobAccess σ)
    (blob : String → σ → Option (List UInt8)) : Stored σ → Prop where
  | start (store : σ) : Reachable settings access blob (begin settings blob store)
  | step {stored next : Stored σ} : Reachable settings access blob stored →
      Step settings access blob stored next → Reachable settings access blob next

/-- The outcome of a save: what was saved before, unless the save went through. -/
def lastSaved {α : Type} (before saved : α) : Except StorageError Unit → α
  | .ok () => saved
  | .error _ => before

/-- To save is to make attempts until one goes through or no more are to be made. -/
theorem Reachable.save (h : Reachable settings access blob stored) {name : String}
    {data : List UInt8} (done : Stored σ)
    (hdone : ∀ store, Reachable settings access blob { stored with store } →
      (access.write name data store).1 = .ok () →
      Reachable settings access blob { done with store := (access.write name data store).2 })
    (hfailed : ∀ store error, Reachable settings access blob { stored with store } →
      (access.write name data store).1 = .error error →
      Reachable settings access blob { stored with store := (access.write name data store).2 }) :
    let saved := settings.store.save access name data stored.store
    Reachable settings access blob { lastSaved stored done saved.result with
      store := saved.store } := by
  intro saved
  obtain ⟨last, hlast, hresult, hstore⟩ := retry_meets
    (fun store => Reachable settings access blob { stored with store }) hfailed
    settings.store.maxAttempts settings.store.backoff h
  have hsaved : saved.result = _ := hresult
  rw [show saved.store = _ from hstore, hsaved]
  cases hwritten : (access.write name data last).1 with
  | ok => exact hdone last hlast hwritten
  | error error => exact hfailed last error hlast hwritten

theorem Reachable.save_join (h : Reachable settings access blob stored)
    (checkpoint : JoinCheckpoint) :
    let saved := settings.store.saveJoin access settings.config.checkpointBlobName checkpoint
      stored.store
    Reachable settings access blob
      { lastSaved stored { stored with join := checkpoint } saved.result with
        store := saved.store } :=
  h.save { stored with join := checkpoint }
    (fun _ hstore hwritten => hstore.step (.join hwritten))
    fun _ _ hstore hfailed => hstore.step (.joinFailed hfailed)

theorem Reachable.save_billing (h : Reachable settings access blob stored)
    (checkpoint : BillingCheckpoint) :
    let saved := settings.store.saveBilling access settings.config.billingBlobName checkpoint
      stored.store
    Reachable settings access blob
      { lastSaved stored { stored with billing := checkpoint } saved.result with
        store := saved.store } :=
  h.save { stored with billing := checkpoint }
    (fun _ hstore hwritten => hstore.step (.billing hwritten))
    fun _ _ hstore hfailed => hstore.step (.billingFailed hfailed)

/-- What was last saved of each checkpoint is in its blob. -/
structure Holds (settings : Pipeline.Settings) (blob : String → σ → Option (List UInt8))
    (stored : Stored σ) : Prop where
  join : CheckpointStore.checkpointIn JoinCheckpoint.ofJson
    (blob settings.config.checkpointBlobName stored.store) = stored.join
  billing : CheckpointStore.checkpointIn BillingCheckpoint.ofJson
    (blob settings.config.billingBlobName stored.store) = stored.billing

/-- Blobs that look the same hold the same. -/
theorem Holds.congr (h : stored.Holds settings blob) {store : σ}
    (hstore : ∀ name, blob name store = blob name stored.store) :
    Holds settings blob { stored with store } where
  join := (congrArg _ (hstore _)).trans h.join
  billing := (congrArg _ (hstore _)).trans h.billing

/-- A write that fails changes no blob. -/
theorem write_failed_leaves (hmap : access.IsMap blob) {name : String} {data : List UInt8}
    {store : σ} {error : StorageError} (h : (access.write name data store).1 = .error error)
    (other : String) : blob other (access.write name data store).2 = blob other store := by
  by_cases hother : other = name
  · rw [hother]
    exact (hmap.faithful name).write_fails h
  · exact hmap.write_leaves hother data store

/-- With a name for each checkpoint, no step comes between a checkpoint and its blob. -/
theorem step_holds (hmap : access.IsMap blob)
    (hnames : settings.config.checkpointBlobName ≠ settings.config.billingBlobName)
    {next : Stored σ} (hstep : Step settings access blob stored next)
    (h : stored.Holds settings blob) : next.Holds settings blob := by
  cases hstep with
  | join hwritten =>
      refine ⟨?_, ?_⟩
      · rw [(hmap.faithful _).write_sets hwritten, CheckpointStore.checkpointIn,
          join_of_json_to_json]
      · rw [hmap.write_leaves hnames.symm]
        exact h.billing
  | joinFailed hfailed => exact h.congr (write_failed_leaves hmap hfailed)
  | billing hwritten =>
      refine ⟨?_, ?_⟩
      · rw [hmap.write_leaves hnames]
        exact h.join
      · rw [(hmap.faithful _).write_sets hwritten, CheckpointStore.checkpointIn,
          billing_of_json_to_json]
  | billingFailed hfailed => exact h.congr (write_failed_leaves hmap hfailed)
  | read name => exact h.congr fun other => hmap.read_leaves name other stored.store
  | outside store hstore => exact h.congr hstore

theorem Reachable.holds (hmap : access.IsMap blob)
    (hnames : settings.config.checkpointBlobName ≠ settings.config.billingBlobName)
    (h : Reachable settings access blob stored) : stored.Holds settings blob := by
  induction h with
  | start store => exact ⟨rfl, rfl⟩
  | step _ hstep ih => exact step_holds hmap hnames hstep ih

/-- In a store that behaves as a map, where the two checkpoints have different names, a load gives what
was last saved of the checkpoint, unless its blob cannot be read. -/
theorem loads_last_saved (hmap : access.IsMap blob)
    (hnames : settings.config.checkpointBlobName ≠ settings.config.billingBlobName)
    (h : Reachable settings access blob stored) :
    (settings.store.loadJoin access settings.config.checkpointBlobName stored.store).result =
        (retry settings.store.maxAttempts settings.store.backoff
          (access.read settings.config.checkpointBlobName) stored.store).result.map
            (fun _ => stored.join) ∧
      (settings.store.loadBilling access settings.config.billingBlobName stored.store).result =
        (retry settings.store.maxAttempts settings.store.backoff
          (access.read settings.config.billingBlobName) stored.store).result.map
            fun _ => stored.billing := by
  obtain ⟨hjoin, hbilling⟩ := h.holds hmap hnames
  rw [CheckpointStore.loadJoin, CheckpointStore.load_result (hmap.faithful _), hjoin,
    CheckpointStore.loadBilling, CheckpointStore.load_result (hmap.faithful _), hbilling]
  exact ⟨rfl, rfl⟩

/-! ## Runs of saves -/

def sampleJoin : JoinCheckpoint :=
  .ofList [("0", ⟨some 8, some .epoch⟩)]

def sampleBilling (number : Int64) : BillingCheckpoint :=
  .ofList [("0", number)]

/-- The settings with these names for the blobs of the two checkpoints. -/
def namedSettings (join billing : String) : Pipeline.Settings :=
  ⟨{ checkpointBlobName := join, billingBlobName := billing }, .standard, .standard, true⟩

/-- Both checkpoints are saved, and then a save of a later billing checkpoint fails. -/
theorem loads_last_saved_sample :
    ∃ stored, Reachable (namedSettings "join" "billing") MemoryBlobs.access
        (fun name store => store.get? name) stored ∧
      ((namedSettings "join" "billing").store.loadJoin MemoryBlobs.access "join"
        stored.store).result = .ok sampleJoin ∧
      ((namedSettings "join" "billing").store.loadBilling MemoryBlobs.access "billing"
        stored.store).result = .ok (sampleBilling 1) := by
  have hstart : Reachable (namedSettings "join" "billing") MemoryBlobs.access
    (fun name store => store.get? name) _ := .start MemoryBlobs.empty
  have hsaved := (hstart.save_billing (sampleBilling 1)).save_join sampleJoin
  have hfailed := (hsaved.step
    (.outside (MemoryBlobs.injectWrites _ [.task "full"]) fun _ => rfl)).save_billing
      (sampleBilling 2)
  exact ⟨_, hfailed, loads_last_saved MemoryBlobs.access_is_map (by decide) hfailed⟩

/-- The configuration is accepted with one name for both checkpoints. When the join checkpoint is saved
after that of billing, billing starts from scratch. -/
theorem shared_blob_loses_billing :
    (namedSettings "cp" "cp").config.validate = .ok () ∧
      ∃ stored, Reachable (namedSettings "cp" "cp") BlobTable.access
          (fun name table => table.get? name) stored ∧
        stored.join = sampleJoin ∧ stored.billing = sampleBilling 0 ∧
        ((namedSettings "cp" "cp").store.loadBilling BlobTable.access "cp" stored.store).result =
          .ok .empty := by
  have hstart : Reachable (namedSettings "cp" "cp") BlobTable.access
    (fun name table => table.get? name) _ := .start .empty
  have hsaved := (hstart.save_billing (sampleBilling 0)).save_join sampleJoin
  exact ⟨rfl, _, hsaved, rfl, rfl, by decide +kernel⟩

end Stored

end WindowJoin
