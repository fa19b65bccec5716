import WindowJoin.Billing.Machine
import WindowJoin.Simulation.Basic

/-!
# Billing under operations and under a script

An account that is resumed, fed and settled by single operations, and a running one that a script
sends records to.
-/

namespace WindowJoin

/-- What is done to an account. -/
inductive BillingAction where
  /-- Goes on from the stored checkpoint, if it can be read. -/
  | resume
  | accumulate (records : List BillingRecord)
  | settle
  | put (data : List UInt8)
  | injectWrites (failures : List StorageError)
  | injectReads (failures : List StorageError)
  | failReports (failures : List Failure)

/-- An account, once it has been resumed, with the store and the reporter around it. -/
structure BillingTrial where
  account : Option BillingAccount
  blobs : Guarded MemoryBlobs
  reporter : UsageReporter

namespace BillingTrial

/-- The store and the reporter before an account is resumed. -/
def start : BillingTrial :=
  ⟨none, ⟨.empty, []⟩, .empty⟩

/-- Takes an action: its result, if it has one, and the time it takes. -/
def perform (rules : BillingRun.Rules) (trial : BillingTrial) :
    BillingAction → Option (Except Failure Unit) × Nat × BillingTrial
  | .resume =>
    let loaded :=
      rules.store.loadBilling (Guarded.access MemoryBlobs.access) rules.blobName trial.blobs
    let after := { trial with blobs := loaded.store }
    match loaded.result with
    | .ok checkpoint =>
      (some (.ok ()), loaded.elapsed, { after with account := some (.ofCheckpoint checkpoint) })
    | .error error =>
      (some (.error (Activity.readingBillingCheckpoint.storageFailure error)), loaded.elapsed, after)
  | .accumulate records =>
    (none, 0, { trial with account := trial.account.map (·.accumulate records) })
  | .settle =>
    match trial.account with
    | none => (none, 0, trial)
    | some account =>
      let settled := account.settle rules.store (Guarded.access MemoryBlobs.access) rules.blobName
        trial.blobs trial.reporter
      (some settled.result, settled.elapsed,
        ⟨some settled.account, settled.store, settled.reporter⟩)
  | .put data =>
    (none, 0, { trial with blobs.store := trial.blobs.store.put rules.blobName data })
  | .injectWrites failures =>
    (none, 0, { trial with blobs.store := trial.blobs.store.injectWrites failures })
  | .injectReads failures => (none, 0, { trial with blobs := trial.blobs.injectReads failures })
  | .failReports failures => (none, 0, { trial with reporter := trial.reporter.inject failures })

end BillingTrial

/-- What a script does to running billing. -/
inductive BillingRunAction where
  | send (records : List BillingRecord)
  | close
  | cancel
  | injectWrites (failures : List StorageError)
  | failReports (failures : List Failure)

/-- Running billing with what it sees. -/
structure BillingRunTrial where
  run : BillingRun
  view : BillingRun.View

namespace BillingRunTrial

/-- Billing that goes on from the checkpoint in a store. -/
def start (rules : BillingRun.Rules) (blobs : MemoryBlobs) (capacity : Nat) : BillingRunTrial where
  run := .start (.ofCheckpoint
    (CheckpointStore.checkpointIn BillingCheckpoint.ofJson (blobs.get? rules.blobName)))
  view := {
    input := .new capacity
    blobs := ⟨blobs, []⟩
    reporter := .empty
    cancelled := false
    now := 0 }

/-- Takes an action. Records wait while the input is full; billing that has ended takes none. -/
def perform : BillingRunAction → BillingRunTrial → Option BillingRunTrial
  | .send records, trial =>
    match trial.view.input.send records with
    | .sent input => some { trial with view.input := input }
    | .refused => some trial
    | .full => none
  | .close, trial => some { trial with view.input := trial.view.input.dropSender }
  | .cancel, trial => some { trial with view.cancelled := true }
  | .injectWrites failures, trial =>
    some { trial with view.blobs.store := trial.view.blobs.store.injectWrites failures }
  | .failReports failures, trial =>
    some { trial with view.reporter := trial.view.reporter.inject failures }

/-- The result of a run, which is a success until it has ended. -/
def result (trial : BillingRunTrial) : Except Failure Unit :=
  match trial.run.control with
  | .finished result => result
  | _ => .ok ()

/-- Running billing on virtual time. -/
def simulation (rules : BillingRun.Rules) : Simulation BillingRunTrial BillingRunAction where
  perform := perform
  steps trial := (BillingRun.transitions rules trial.run trial.view).map fun (run, view) => ⟨run, view⟩
  deadlines trial := trial.run.deadlines
  finished trial := trial.run.isFinished
  cancel trial := { trial with view.cancelled := true }
  now trial := trial.view.now
  setNow now trial := { trial with view.now := now }

end BillingRunTrial

end WindowJoin
