import WindowJoin.Storage.Checkpoints

/-!
# Billing

The events of each joined batch are billed once. An account counts the events of batches that its
checkpoint has not seen. It is settled in two steps: first the checkpoint is stored, then the count
is reported and starts over. If the checkpoint cannot be stored the report waits for a later
settlement, so a crash can lose events but never bills one twice.
-/

namespace WindowJoin

/-- Where usage is reported: the reports so far, and the errors of the next ones. -/
structure UsageReporter where
  reports : List Nat
  failures : List Failure
  deriving DecidableEq

namespace UsageReporter

/-- A reporter without reports. -/
def empty : UsageReporter :=
  ⟨[], []⟩

/-- Reports a number of events. -/
def report (reporter : UsageReporter) (events : Nat) : Except Failure Unit × UsageReporter :=
  match reporter.failures with
  | failure :: later => (.error failure, { reporter with failures := later })
  | [] => (.ok (), { reporter with reports := reporter.reports ++ [events] })

/-- Lets the next reports fail. -/
def inject (reporter : UsageReporter) (failures : List Failure) : UsageReporter :=
  { reporter with failures := reporter.failures ++ failures }

end UsageReporter

/-- The batches that have been counted, and the events that have not been reported yet. -/
structure BillingAccount where
  checkpoint : BillingCheckpoint
  accumulated : Nat
  deriving DecidableEq

namespace BillingAccount

/-- An account that goes on from a checkpoint. -/
def ofCheckpoint (checkpoint : BillingCheckpoint) : BillingAccount :=
  ⟨checkpoint, 0⟩

/-- Counts the events of a batch, unless it or a later one of its partition has been counted. -/
def count (account : BillingAccount) (record : BillingRecord) : BillingAccount :=
  match account.checkpoint.tryAdvance record.partition record.sequenceNumber with
  | some checkpoint => ⟨checkpoint, account.accumulated + record.eventCount⟩
  | none => account

/-- Counts the events of batches in turn. -/
def accumulate (account : BillingAccount) (records : List BillingRecord) : BillingAccount :=
  records.foldl count account

/-- Reports the count, which then starts over. -/
def report (account : BillingAccount) (reporter : UsageReporter) :
    Except Failure Unit × BillingAccount × UsageReporter :=
  match reporter.report account.accumulated with
  | (.ok (), reporter) => (.ok (), { account with accumulated := 0 }, reporter)
  | (.error failure, reporter) => (.error failure, account, reporter)

/-- What a settlement comes to: its result, the account, the store, the reporter, and the waits
between the attempts to store the checkpoint. -/
structure Settlement (σ : Type) where
  result : Except Failure Unit
  account : BillingAccount
  store : σ
  reporter : UsageReporter
  delays : List Duration

/-- The time that a settlement takes with its waits. -/
def Settlement.elapsed {σ : Type} (settled : Settlement σ) : Nat :=
  totalPause settled.delays

/-- Stores the checkpoint and reports the count, if there is anything to report. -/
def settle {σ : Type} (settings : CheckpointStore) (access : BlobAccess σ) (name : String)
    (account : BillingAccount) (store : σ) (reporter : UsageReporter) : Settlement σ :=
  if account.accumulated = 0 then ⟨.ok (), account, store, reporter, []⟩
  else
    let saved := settings.saveBilling access name account.checkpoint store
    match saved.result with
    | .error _ => ⟨.ok (), account, saved.store, reporter, saved.delays⟩
    | .ok () =>
      let (result, account, reporter) := account.report reporter
      ⟨result, account, saved.store, reporter, saved.delays⟩

end BillingAccount

end WindowJoin
